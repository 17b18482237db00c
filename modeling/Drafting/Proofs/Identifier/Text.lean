import Drafting.Identifier.Basic
import Mathlib.Tactic.Ring

/-! The written form of identifiers.

Writing an identifier and reading it gives it back. The digits are read from the
front, so with an arbitrary number in front of them they give that number moved up
by their count and filled in below (`foldlM_hexDigits`). The hyphens stand where
the reader looks for them because the first four groups have fixed lengths. -/
namespace Drafting

namespace Number

theorem hexDigits_succ (count n : Nat) :
    hexDigits (count + 1) n = hexDigit (n >>> (4 * count) % 16) :: hexDigits count n := by
  rw [hexDigits, hexDigits, List.range_succ_eq_map, List.map_cons, List.map_map]
  refine congrArg _ (List.map_congr_left fun i _ => ?_)
  have hplace : count + 1 - 1 - (i + 1) = count - 1 - i := by omega
  simp only [Function.comp_apply, Nat.succ_eq_add_one, hplace]

@[simp] theorem length_hexDigits (count n : Nat) : (hexDigits count n).length = count := by
  simp [hexDigits]

/-- Reading goes on from the number that stands in front of the digits. -/
theorem foldlM_hexDigits (front count n : Nat) :
    (hexDigits count n).foldlM (fun n d => (hexValue? d).map (16 * n + ·)) front =
      some (front * 16 ^ count + n % 16 ^ count) := by
  induction count generalizing front with
  | zero => simp [hexDigits, Nat.mod_one]
  | succ count ih =>
    have hshift : n >>> (4 * count) = n / 16 ^ count := by
      rw [Nat.shiftRight_eq_div_pow, Nat.pow_mul]
    rw [hexDigits_succ, List.foldlM_cons, hexValue?_hexDigit _ (Nat.mod_lt _ (by decide)), hshift]
    show List.foldlM _ (16 * front + n / 16 ^ count % 16) (hexDigits count n) = _
    rw [ih, Nat.mod_pow_succ]
    congr 1
    ring

theorem ofHexDigits?_hexDigits (count n : Nat) : ofHexDigits? (hexDigits count n) = some (n % 16 ^ count) := by
  rw [ofHexDigits?, foldlM_hexDigits, Nat.zero_mul, Nat.zero_add]

end Number

namespace Uuid

theorem length_grouped {ds : List Char} (h : ds.length = 32) : (grouped ds).length = 36 := by
  simp [grouped, h]

/-- The hyphens are where they are looked for. -/
theorem ungrouped?_grouped {ds : List Char} (h : ds.length = 32) : ungrouped? (grouped ds) = some ds := by
  have hcut : ∀ {cs : List Char} {m n : Nat}, cs.length = m + n → ∃ front back, cs = front ++ back ∧
      front.length = m ∧ back.length = n := fun {cs m n} hcs =>
    ⟨cs.take m, cs.drop m, (List.take_append_drop m cs).symm, by simp [hcs], by simp [hcs]⟩
  obtain ⟨a, rest, rfl, ha, hrest⟩ := hcut (m := 8) (n := 24) h
  obtain ⟨b, rest, rfl, hb, hrest⟩ := hcut (m := 4) (n := 20) hrest
  obtain ⟨c, rest, rfl, hc, hrest⟩ := hcut (m := 4) (n := 16) hrest
  obtain ⟨d, e, rfl, hd, he⟩ := hcut (m := 4) (n := 12) hrest
  have hgrouped : grouped (a ++ (b ++ (c ++ (d ++ e)))) = a ++ '-' :: (b ++ '-' :: (c ++ '-' :: (d ++ '-' :: e))) := by
    simp (disch := omega) [grouped, List.drop_append, List.drop_eq_nil_of_le, ha, hb, hc]
  rw [hgrouped, ungrouped?, if_pos]
  · simp (disch := omega) [List.drop_append, List.drop_eq_nil_of_le, ha, hb, hc, hd]
  · simp [List.getElem?_append, List.getElem?_cons, ha, hb, hc, hd, he]

/-- **An identifier is read from its text.** -/
theorem ofText?_text (u : Uuid) : ofText? u.text = some u := by
  have hdigits : u.digits.length = 32 := Number.length_hexDigits _ _
  have hread : Number.ofHexDigits? u.digits = some u.bits.toNat := by
    have hbits : u.bits.toNat < 16 ^ 32 := u.bits.isLt
    rw [digits, Number.ofHexDigits?_hexDigits, Nat.mod_eq_of_lt hbits]
  simp [ofText?, text, length_grouped hdigits, ungrouped?_grouped hdigits, hread]

end Uuid

end Drafting
