import Drafting.Identifier.Series
import Mathlib.Algebra.Group.Nat.Defs
import Mathlib.Data.List.Nodup
import Mathlib.Data.Set.Function
import Mathlib.Order.Interval.Set.Defs

/-! What a series gives, many identifiers at a time.

`take` lists the next identifiers and `drop` is the series behind them. Identifiers
are hashes, so nothing but the hash function keeps two numbers of one name space
from sharing one; where that matters, `Distinct` is a hypothesis on the numbers that
have been used. A number enters the hash as eight bytes, which determine it below 2⁶⁴
(`Sha1.mod_eq_of_bigEndian_eq`). -/
namespace Drafting

namespace Sha1

/-- The bytes of a number determine it, but for what does not fit. -/
theorem mod_eq_of_bigEndian_eq {count m n : Nat} (h : bigEndian count m = bigEndian count n) :
    m % 256 ^ count = n % 256 ^ count := by
  have hbytes : ∀ k < count, m / 256 ^ k % 256 = n / 256 ^ k % 256 := by
    intro k hk
    have hplace : count - 1 - (count - 1 - k) = k := by omega
    have hbyte := List.map_inj_left.mp h (count - 1 - k) (List.mem_range.mpr (by omega))
    simpa [hplace, Nat.shiftRight_eq_div_pow, Nat.pow_mul] using congrArg UInt8.toNat hbyte
  clear h
  induction count with
  | zero => simp only [Nat.pow_zero, Nat.mod_one]
  | succ count ih =>
    rw [Nat.mod_pow_succ, Nat.mod_pow_succ, ih fun k hk => hbytes k (Nat.lt_succ_of_lt hk),
      hbytes count (Nat.lt_succ_self count)]

end Sha1

namespace Series

/-- The next `n` identifiers. -/
def take (s : Series) (n : Nat) : List ConstraintId := (List.range' s.drawn n).map (nth s.space)

/-- The series after `n` draws. -/
def drop (s : Series) (n : Nat) : Series := { s with drawn := s.drawn + n }

@[simp] theorem drop_zero (s : Series) : s.drop 0 = s := rfl

@[simp] theorem length_take (s : Series) (n : Nat) : (s.take n).length = n := by simp [take]

theorem take_succ (s : Series) (n : Nat) : s.take (n + 1) = s.next :: s.advance.take n := rfl

theorem drop_advance (s : Series) (n : Nat) : s.advance.drop n = s.drop (n + 1) := by
  simp only [drop, advance, Nat.add_assoc, Nat.add_comm 1 n]

theorem take_add (s : Series) (m n : Nat) : s.take (m + n) = s.take m ++ (s.drop m).take n := by
  simp only [take, drop, ← List.range'_append_1, List.map_append]

@[simp] theorem drop_drop (s : Series) (m n : Nat) : (s.drop m).drop n = s.drop (m + n) := by
  simp only [drop, Nat.add_assoc]

/-- An unused series gives its identifiers from number zero on. -/
theorem take_ofSpace (space : Uuid) (n : Nat) : (ofSpace space).take n = (List.range n).map (nth space) := by
  rw [take, List.range_eq_range']
  rfl

/-- The first `n` identifiers in a name space differ from each other. -/
def Distinct (space : Uuid) (n : Nat) : Prop := ∀ i < n, ∀ j < n, nth space i = nth space j → i = j

instance (space : Uuid) (n : Nat) : Decidable (Distinct space n) :=
  inferInstanceAs (Decidable (∀ i < n, ∀ j < n, nth space i = nth space j → i = j))

/-- Numbers of 64 bits are told apart by the hash function if their bytes are. -/
theorem distinct_of_injOn {space : Uuid} {n : Nat} (hn : n ≤ 2 ^ 64)
    (h : Set.InjOn (Uuid.named space) (Sha1.bigEndian 8 '' Set.Iio n)) : Distinct space n := by
  intro i hi j hj heq
  have hbytes : Sha1.bigEndian 8 i = Sha1.bigEndian 8 j :=
    h (Set.mem_image_of_mem _ hi) (Set.mem_image_of_mem _ hj) (congrArg ConstraintId.uuid heq)
  have hmod : i % 256 ^ 8 = j % 256 ^ 8 := Sha1.mod_eq_of_bigEndian_eq hbytes
  omega

theorem nodup_take {space : Uuid} {n : Nat} (h : Distinct space n) : ((ofSpace space).take n).Nodup := by
  rw [take_ofSpace]
  refine List.nodup_range.map_on fun i hi j hj => ?_
  exact h i (List.mem_range.mp hi) j (List.mem_range.mp hj)

end Series

end Drafting
