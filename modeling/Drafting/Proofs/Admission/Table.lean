import Drafting.Proofs.Admission
import Mathlib.Data.List.Basic

/-! The table of constraints.

`ConstraintKind.listing` is what a constraint of each kind relates and needs, as
a table: rows of entities, and at most one parameter. A tangent pair has three rows
and every other kind one. The check looks at the places of a row one after the
other and knows of no rows. What it asks for at a place is the same nevertheless:
`asks_places` says that a kind of entity is refused there exactly if no row goes on
with it, so that the first place where the check stops is the first place where the
table does. -/
namespace Drafting

/-- What the table lists at a place of a row. -/
inductive Slot where
  | line
  /-- A circle or an arc. -/
  | round
  | any
  deriving DecidableEq, Repr

/-- What the table asks of the parameters. -/
inductive Demand where
  | nothing
  /-- A finite number, and one above zero if it is a dimension. -/
  | number (key : ParameterKey) (positive : Bool)
  /-- A finite vector that has a direction. -/
  | offset
  /-- A finite point, or none. -/
  | point
  deriving DecidableEq, Repr

/-- An entry of the table. -/
structure Listing where
  rows : List (List Slot)
  /-- Whether entities of any kind may follow behind a row. -/
  more : Bool := false
  demand : Demand := .nothing

/-- The table. -/
def ConstraintKind.listing : ConstraintKind → Listing
  | .horizontal | .vertical => { rows := [[.line]] }
  | .length => { rows := [[.line]], demand := .number .length true }
  | .radius => { rows := [[.round]], demand := .number .radius true }
  | .diameter => { rows := [[.round]], demand := .number .diameter true }
  | .fix => { rows := [[.any]], demand := .point }
  | .parallel | .perpendicular | .collinear | .equalLength => { rows := [[.line, .line]] }
  | .angle => { rows := [[.line, .line]], demand := .number .angle false }
  | .offsetDistance => { rows := [[.line, .line]], demand := .number .distance true }
  | .tangent => { rows := [[.round, .line], [.line, .round], [.round, .round]], demand := .point }
  | .concentric | .equalRadius => { rows := [[.round, .round]] }
  | .distance => { rows := [[.any, .any]], demand := .number .distance true }
  | .midpoint => { rows := [[.any, .line]] }
  | .symmetric => { rows := [[.any, .any, .line]] }
  | .coincident => { rows := [[.any, .any]], more := true }
  | .pattern => { rows := [[.any, .any]], more := true, demand := .offset }

/-! ### Rows -/

namespace Slot

def admits : Slot → EntityKind → Bool
  | .line, k => k == .line
  | .round, k => k.isCircular
  | .any, _ => true

/-- Whether kinds of entities are those of a row. -/
def fits (more : Bool) : List Slot → List EntityKind → Bool
  | [], ks => ks.isEmpty || more
  | s :: row, k :: ks => s.admits k && fits more row ks
  | _ :: _, [] => false

/-- Whether kinds of entities can be those at the beginning of a row. -/
def begins (more : Bool) : List Slot → List EntityKind → Bool
  | _, [] => true
  | s :: row, k :: ks => s.admits k && begins more row ks
  | [], _ :: _ => more

variable {more : Bool} {row : List Slot} {ks : List EntityKind}

/-- Every row can be filled. -/
theorem exists_fits (more : Bool) (row : List Slot) : ∃ ks, fits more row ks = true := by
  induction row with
  | nil => exact ⟨[], rfl⟩
  | cons s row ih =>
    obtain ⟨ks, hks⟩ := ih
    cases s with
    | line => exact ⟨.line :: ks, hks⟩
    | round => exact ⟨.circle :: ks, hks⟩
    | any => exact ⟨.point :: ks, hks⟩

theorem begins_iff : begins more row ks = true ↔ ∃ rest, fits more row (ks ++ rest) = true := by
  induction ks generalizing row with
  | nil =>
    have hbegins : begins more row [] = true := by cases row <;> rfl
    exact iff_of_true hbegins (exists_fits more row)
  | cons k ks ih =>
    cases row with
    | nil => simp [begins, fits]
    | cons s row => simp only [begins, List.cons_append, fits, Bool.and_eq_true, exists_and_left, ih]

/-- One more entity is asked for at the place behind. -/
theorem begins_concat (k : EntityKind) :
    begins more row (ks ++ [k]) = (begins more row ks && (row[ks.length]?.elim more (·.admits k))) := by
  induction ks generalizing row with
  | nil => cases row <;> simp [begins]
  | cons k' ks ih =>
    cases row with
    | nil => cases more <;> simp [begins]
    | cons s row => simp [begins, ih, Bool.and_assoc]

/-- A beginning that is as long as the row is all of it. -/
theorem fits_of_begins (h : begins more row ks = true)
    (hlength : row.length = ks.length ∨ more = true ∧ row.length ≤ ks.length) : fits more row ks = true := by
  induction row generalizing ks with
  | nil =>
    rcases hlength with hnil | ⟨rfl, _⟩
    · rw [List.length_eq_zero_iff.mp hnil.symm]
      rfl
    · simp [fits]
  | cons s row ih =>
    cases ks with
    | nil => simp at hlength
    | cons k ks =>
      simp only [begins, Bool.and_eq_true] at h
      simp only [List.length_cons, Nat.add_right_cancel_iff, Nat.add_le_add_iff_right] at hlength
      simp only [fits, Bool.and_eq_true]
      exact ⟨h.1, ih h.2 hlength⟩

/-- What the check asks for where the table lists this. -/
def expected? : Slot → Option Expected
  | .line => some .line
  | .round => some .circular
  | .any => none

theorem admits_eq {s : Slot} {x : Expected} (h : s.expected? = some x) (k : EntityKind) : s.admits k = x.admits k := by
  cases s <;> cases h <;> rfl

theorem admits_of_none {s : Slot} (h : s.expected? = none) (k : EntityKind) : s.admits k = true := by
  cases s <;> first | rfl | cases h

end Slot

/-! ### Kinds -/

namespace ConstraintKind

variable {kind : ConstraintKind} {ks ls : List EntityKind}

/-- The table has a row with these kinds of entities. -/
def Lists (kind : ConstraintKind) (ks : List EntityKind) : Prop :=
  ∃ row ∈ kind.listing.rows, Slot.fits kind.listing.more row ks = true

/-- Some row of the table begins with these kinds of entities. -/
def Begins (kind : ConstraintKind) (ks : List EntityKind) : Prop := ∃ rest, kind.Lists (ks ++ rest)

theorem Begins.of_append (h : kind.Begins (ks ++ ls)) : kind.Begins ks := by
  obtain ⟨rest, hrest⟩ := h
  exact ⟨ls ++ rest, by rwa [← List.append_assoc]⟩

theorem Lists.begins (h : kind.Lists ks) : kind.Begins ks := ⟨[], by rwa [List.append_nil]⟩

theorem begins_iff : kind.Begins ks ↔ ∃ row ∈ kind.listing.rows, Slot.begins kind.listing.more row ks = true := by
  simp only [Begins, Lists, Slot.begins_iff]
  constructor
  · exact fun ⟨rest, row, hrow, hfits⟩ => ⟨row, hrow, rest, hfits⟩
  · exact fun ⟨row, hrow, rest, hfits⟩ => ⟨rest, row, hrow, hfits⟩

instance : Decidable (kind.Lists ks) :=
  inferInstanceAs (Decidable (∃ row ∈ kind.listing.rows, Slot.fits kind.listing.more row ks = true))

instance : Decidable (kind.Begins ks) := decidable_of_iff _ begins_iff.symm

/-- The line of a tangent pair may come first or last, but there is only one. -/
example : ConstraintKind.tangent.Lists [.arc, .line] ∧ ConstraintKind.tangent.Lists [.line, .arc] ∧
    ¬ ConstraintKind.tangent.Begins [.line, .line] := by
  decide

theorem begins_nil (kind : ConstraintKind) : kind.Begins [] := by
  rw [begins_iff]
  cases kind <;> exact ⟨_, List.mem_cons_self, rfl⟩

/-- The rows of the table have the accepted lengths. -/
theorem accepts_iff_length {n : Nat} : ∀ row ∈ kind.listing.rows,
    kind.arity.accepts n = true ↔ row.length = n ∨ kind.listing.more = true ∧ row.length ≤ n := by
  cases kind <;> simp [listing, arity, Arity.accepts, eq_comm (a := n)] <;> omega

theorem Begins.lists (h : kind.Begins ks) (harity : kind.arity.accepts ks.length = true) : kind.Lists ks := by
  obtain ⟨row, hrow, hbegins⟩ := begins_iff.mp h
  exact ⟨row, hrow, Slot.fits_of_begins hbegins ((accepts_iff_length row hrow).mp harity)⟩

end ConstraintKind

/-! ### Places -/

namespace Admission

variable {kind : ConstraintKind} {before ks : List EntityKind} {wanted : List (Option Expected)}

/-- The table stops at an entity of kind `k`: rows begin with the kinds before it, and those that go on
go on with what is expected. -/
structure Stops (kind : ConstraintKind) (before : List EntityKind) (k : EntityKind) (x : Expected) : Prop where
  begins : kind.Begins before
  stops : ¬ kind.Begins (before ++ [k])
  expected : ∀ other, x.admits other = true ↔ kind.Begins (before ++ [other])

/-- Behind a beginning of a row, what is wanted at each place is what rows go on with there. -/
structure Asks (kind : ConstraintKind) (before : List EntityKind) (wanted : List (Option Expected))
    (ks : List EntityKind) : Prop where
  asked : ∀ i < ks.length, ∀ x, wanted[i]?.join = some x → kind.Begins (before ++ ks.take i) →
    ∀ k, x.admits k = true ↔ kind.Begins (before ++ ks.take i ++ [k])
  /-- Where nothing is asked for, rows go on with what is there. -/
  free : ∀ i < ks.length, wanted[i]?.join = none → kind.Begins (before ++ ks.take i) →
    kind.Begins (before ++ ks.take (i + 1))

theorem Asks.tail {k : EntityKind} (h : Asks kind before wanted (k :: ks)) :
    Asks kind (before ++ [k]) wanted.tail ks := by
  constructor
  · intro i hi x hx hbegins
    rw [List.getElem?_tail] at hx
    have hasked := h.asked (i + 1) (Nat.succ_lt_succ hi) x hx
    simpa using hasked (by simpa using hbegins)
  · intro i hi hnone hbegins
    rw [List.getElem?_tail] at hnone
    have hfree := h.free (i + 1) (Nat.succ_lt_succ hi) hnone
    simpa using hfree (by simpa using hbegins)

/-- Of a kind with one row the check asks for what stands in the row. -/
theorem places_of_ne_tangent (h : kind ≠ .tangent) (first : Option EntityKind) :
    ∃ row, kind.listing.rows = [row] ∧ ∀ i : Nat, (places kind first)[i]?.join = row[i]?.bind Slot.expected? := by
  cases kind <;> first
    | exact absurd rfl h
    | exact ⟨_, rfl, fun i => by rcases i with _ | _ | _ | i <;> rfl⟩

/-- The second place of a tangent pair depends on the first, so the pairs are gone through one by one. -/
theorem asks_places_tangent (a b : EntityKind) : Asks .tangent [] (places .tangent (some a)) [a, b] := by
  constructor
  · intro i hi x hx hbegins k
    match i, hi with
    | 0, _ =>
      change x.admits k = true ↔ ConstraintKind.tangent.Begins [k]
      cases a <;> cases hx <;> cases k <;> decide
    | 1, _ =>
      change ConstraintKind.tangent.Begins [a] at hbegins
      change x.admits k = true ↔ ConstraintKind.tangent.Begins [a, k]
      revert hbegins
      cases a <;> cases hx <;> cases k <;> decide
  · intro i hi hnone hbegins
    match i, hi with
    | 0, _ =>
      change ConstraintKind.tangent.Begins [a]
      cases a <;> first | decide | cases hnone
    | 1, _ => cases a <;> cases hnone

theorem asks_places_row (h : kind ≠ .tangent) (first : Option EntityKind) (harity : kind.arity.accepts ks.length = true) :
    Asks kind [] (places kind first) ks := by
  obtain ⟨row, hrows, hplaces⟩ := places_of_ne_tangent h first
  have hrow : row ∈ kind.listing.rows := hrows ▸ List.mem_cons_self
  have hbegins (l : List EntityKind) : kind.Begins l ↔ Slot.begins kind.listing.more row l = true := by
    rw [ConstraintKind.begins_iff, hrows]
    simp
  constructor
  · intro i hi x hx hbefore k
    rw [hplaces, Option.bind_eq_some_iff] at hx
    obtain ⟨s, hs, hx⟩ := hx
    rw [List.nil_append, hbegins] at hbefore
    rw [List.nil_append, hbegins, Slot.begins_concat, hbefore, List.length_take_of_le (Nat.le_of_lt hi), hs]
    simp [Slot.admits_eq hx]
  · intro i hi hnone hbefore
    rw [hplaces] at hnone
    rw [List.nil_append, hbegins] at hbefore
    rw [List.nil_append, List.take_succ_eq_append_getElem hi, hbegins, Slot.begins_concat, hbefore,
      List.length_take_of_le (Nat.le_of_lt hi)]
    cases hs : row[i]? with
    | some s =>
      rw [hs] at hnone
      simpa using Slot.admits_of_none hnone ks[i]
    | none =>
      -- The row ends before the entities do.
      have hlength := List.getElem?_eq_none_iff.mp hs
      have hmore := (ConstraintKind.accepts_iff_length row hrow).mp harity
      have : kind.listing.more = true := (hmore.resolve_left (by omega)).1
      simpa using this

/-- **The check asks for what the table lists.** -/
theorem asks_places (harity : kind.arity.accepts ks.length = true) : Asks kind [] (places kind ks.head?) ks := by
  by_cases htangent : kind = .tangent
  · subst htangent
    obtain ⟨a, b, rfl⟩ := List.length_eq_two.mp (eq_of_beq harity)
    exact asks_places_tangent a b
  · exact asks_places_row htangent _ harity

/-- Where going along a row of the table from `position` on leads to: to the end, or to a place where the table
stops. -/
inductive Along (kind : ConstraintKind) (before : List EntityKind) (position : Nat) (found : List (EntityId × EntityKind)) :
    Option AdmissionError → Prop where
  | through (h : kind.Begins (before ++ found.map Prod.snd)) : Along kind before position found none
  | stopped {passed rest : List (EntityId × EntityKind)} {id : EntityId} {k : EntityKind} {x : Expected}
    (hfound : found = passed ++ (id, k) :: rest) (h : Stops kind (before ++ passed.map Prod.snd) k x) :
    Along kind before position found (some (.wrongEntity kind id (position + passed.length) x k))

theorem Along.later {position : Nat} {id : EntityId} {k : EntityKind} {found : List (EntityId × EntityKind)}
    {stop : Option AdmissionError} (h : Along kind (before ++ [k]) (position + 1) found stop) :
    Along kind before position ((id, k) :: found) stop := by
  cases h with
  | through h => exact .through (by simpa using h)
  | @stopped passed rest id' k' x hfound h =>
    have hplace : position + 1 + passed.length = position + ((id, k) :: passed).length := by
      rw [List.length_cons]
      omega
    rw [hplace]
    exact .stopped (by rw [hfound, List.cons_append]) (by simpa using h)

theorem along_firstMismatch? {position : Nat} {found : List (EntityId × EntityKind)}
    (h : Asks kind before wanted (found.map Prod.snd)) (hbegins : kind.Begins before) :
    Along kind before position found (firstMismatch? kind position wanted found) := by
  induction found generalizing before wanted position with
  | nil =>
    have hnone : firstMismatch? kind position wanted [] = none := by
      rcases wanted with _ | ⟨_ | _, _⟩ <;> rfl
    rw [hnone]
    exact .through (by simpa using hbegins)
  | cons e found ih =>
    obtain ⟨id, k⟩ := e
    have hlength : 0 < (((id, k) :: found).map Prod.snd).length := Nat.succ_pos _
    have hhere : kind.Begins (before ++ (((id, k) :: found).map Prod.snd).take 0) := by simpa using hbegins
    have hlater (hnext : kind.Begins (before ++ [k])) :
        Along kind before position ((id, k) :: found) (firstMismatch? kind (position + 1) wanted.tail found) :=
      (ih h.tail hnext).later
    match wanted with
    | [] =>
      have hnone : firstMismatch? kind position [] ((id, k) :: found) = firstMismatch? kind (position + 1) [] found := by
        rw [firstMismatch?_nil, firstMismatch?_nil]
      rw [hnone]
      exact hlater (by simpa using h.free 0 hlength rfl hhere)
    | none :: wanted => exact hlater (by simpa using h.free 0 hlength rfl hhere)
    | some x :: wanted =>
      have hasked : ∀ other, x.admits other = true ↔ kind.Begins (before ++ [other]) := by
        simpa using h.asked 0 hlength x rfl hhere
      rw [firstMismatch?]
      by_cases hk : x.admits k = true
      · rw [if_pos hk]
        exact hlater ((hasked k).mp hk)
      · rw [if_neg hk]
        have hstops : Stops kind (before ++ ([] : List (EntityId × EntityKind)).map Prod.snd) k x := by
          rw [List.map_nil, List.append_nil]
          exact ⟨hbegins, mt (hasked k).mpr hk, hasked⟩
        exact .stopped rfl hstops

/-! ### Where the table stops

Behind a place where the table stops, rows do not go on: it stops at one place at most, and with one
expectation. -/

theorem Stops.expected_unique {k k' : EntityKind} {x x' : Expected} (h : Stops kind before k x)
    (h' : Stops kind before k' x') : x = x' := by
  have hadmits (other : EntityKind) : x.admits other = x'.admits other :=
    Bool.eq_iff_iff.mpr ((h.expected other).trans (h'.expected other).symm)
  have hagree : x.admits .line = x'.admits .line ∧ x.admits .circle = x'.admits .circle :=
    ⟨hadmits .line, hadmits .circle⟩
  clear hadmits h h'
  revert hagree
  cases x <;> cases x' <;> decide

theorem Stops.not_begins {k : EntityKind} {x : Expected} (h : Stops kind before k x) :
    ¬ kind.Begins (before ++ k :: ks) := by
  rw [List.append_cons]
  exact fun hbegins => h.stops hbegins.of_append

theorem Stops.place_unique {passed passed' rest rest' : List (EntityId × EntityKind)} {e e' : EntityId × EntityKind}
    {x x' : Expected} (h : Stops kind (before ++ passed.map Prod.snd) e.2 x)
    (h' : Stops kind (before ++ passed'.map Prod.snd) e'.2 x') (hfound : passed ++ e :: rest = passed' ++ e' :: rest') :
    passed = passed' ∧ e = e' := by
  rcases List.append_eq_append_iff.mp hfound with ⟨more, rfl, hmore⟩ | ⟨more, rfl, hmore⟩
  · cases more with
    | nil => exact ⟨by rw [List.append_nil], (List.cons.inj hmore).1⟩
    | cons first more =>
      rw [← (List.cons.inj hmore).1] at h'
      exact absurd (by simpa using h'.begins) h.not_begins
  · cases more with
    | nil => exact ⟨by rw [List.append_nil], (List.cons.inj hmore).1.symm⟩
    | cons first more =>
      rw [← (List.cons.inj hmore).1] at h
      exact absurd (by simpa using h.begins) h'.not_begins

theorem Along.unique {position : Nat} {found : List (EntityId × EntityKind)} {stop stop' : Option AdmissionError}
    (h : Along kind before position found stop) (h' : Along kind before position found stop') : stop = stop' := by
  cases h with
  | through hbegins =>
    cases h' with
    | through => rfl
    | stopped hfound hstops =>
      rw [hfound, List.map_append, List.map_cons, ← List.append_assoc] at hbegins
      exact absurd hbegins hstops.not_begins
  | stopped hfound hstops =>
    cases h' with
    | through hbegins =>
      rw [hfound, List.map_append, List.map_cons, ← List.append_assoc] at hbegins
      exact absurd hbegins hstops.not_begins
    | stopped hfound' hstops' =>
      obtain ⟨rfl, heq⟩ := hstops.place_unique hstops' (hfound.symm.trans hfound')
      obtain ⟨rfl, rfl⟩ := Prod.mk.inj heq
      rw [hstops.expected_unique hstops']

/-- **The check stops where the table does.** -/
theorem firstMismatch?_eq_iff {found : List (EntityId × EntityKind)} {stop : Option AdmissionError}
    (harity : kind.arity.accepts found.length = true) :
    firstMismatch? kind 0 (places kind (found.head?.map Prod.snd)) found = stop ↔ Along kind [] 0 found stop := by
  have hasks : Asks kind [] (places kind (found.head?.map Prod.snd)) (found.map Prod.snd) := by
    rw [← List.head?_map]
    exact asks_places (by rwa [List.length_map])
  have halong : Along kind [] 0 found (firstMismatch? kind 0 (places kind (found.head?.map Prod.snd)) found) :=
    along_firstMismatch? hasks (ConstraintKind.begins_nil kind)
  constructor
  · intro h
    rwa [h] at halong
  · exact halong.unique

end Admission

end Drafting
