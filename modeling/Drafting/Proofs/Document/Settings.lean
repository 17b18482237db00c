import Drafting.Document.Settings
import Drafting.Proofs.Json.Codec
import Drafting.Proofs.Json.Grammar
import Drafting.Proofs.Settings

/-! Loading settings.

A text spells a document, in the grammar of JSON. A document gives a setting in its section
under its name, or does not give it. What an object gives under a name is the list of all
values there (`Value.given`): a list without values stands for the standard value, a list of
one for what this value means as a number, a count or a mode, and a longer one is refused
(`Says`). An object is read member by member, so reading a section is reading each of its
settings, and reading the document is reading both sections (`Settings.decode?_eq_some`). What
is read is checked. So the settings that a document loads are in range and the very ones it
gives (`Settings.ofText_objects`). -/
namespace Drafting

namespace Json

/-! ### Members of objects -/

/-- The values that an object gives under a name. -/
def Value.given (name : String) : Value → List Value
  | .object members => (members.filter (·.1 == some name)).map (·.2)
  | _ => []

/-- Written as an object. -/
def Value.IsObject (v : Value) : Prop := ∃ members, v = .object members

/-- An object whose names all denote texts. -/
def Value.HasNames (v : Value) : Prop := ∃ members : List (String × Value), v = .ofMembers members

theorem Value.HasNames.isObject {v : Value} : v.HasNames → v.IsObject
  | ⟨_, h⟩ => ⟨_, h⟩

/-- What is given for a field stands for a value: nothing for the standard value, and one value for what it means. -/
inductive Says {α : Type} (means : Value → α → Prop) (standard : α) : List Value → α → Prop where
  | standard : Says means standard [] standard
  | given {v : Value} {a : α} (h : means v a) : Says means standard [v] a

theorem says_nil {α : Type} {means : Value → α → Prop} {standard a : α} : Says means standard [] a ↔ a = standard :=
  ⟨fun | .standard => rfl, fun h => h ▸ .standard⟩

/-- A type whose values are read as what they mean. -/
def ReadsAs {α : Type} [Codec α] (means : Value → α → Prop) : Prop := ∀ v a, decode? v = some a ↔ means v a

theorem says_iff {α : Type} [Codec α] {means : Value → α → Prop} (hmeans : ReadsAs means) {standard a : α}
    {values : List Value} :
    Says means standard values a ↔ ∃ field, values = field.toList ∧ defaulted standard field = some a := by
  constructor
  · rintro (_ | ⟨h⟩)
    · exact ⟨none, rfl, rfl⟩
    · exact ⟨some _, rfl, (hmeans _ _).mpr h⟩
  · rintro ⟨_ | v, rfl, h⟩
    · cases h
      exact .standard
    · exact .given ((hmeans _ _).mp h)

theorem member?_eq_some {name : String} {members : List (String × Value)} {field : Option Value} :
    member? name members = some field ↔ (members.filter (·.1 == name)).map (·.2) = field.toList := by
  unfold member?
  generalize members.filter (·.1 == name) = found
  rcases found with _ | ⟨m, _ | ⟨m', rest⟩⟩ <;> cases field <;> simp

theorem given_ofMembers (name : String) (members : List (String × Value)) :
    (Value.ofMembers members).given name = (members.filter (·.1 == name)).map (·.2) := by
  have hname : ((fun m : Literal × Value => m.1 == some name) ∘ fun m : String × Value => (some m.1, m.2)) =
      fun m => m.1 == name := by
    funext m
    by_cases h : m.1 = name <;> simp [h]
  rw [Value.ofMembers, Value.given, List.filter_map, hname, List.map_map]
  rfl

theorem mapM_eq_some_iff {α β : Type} {f : α → Option β} {l : List α} {l' : List β} :
    l.mapM f = some l' ↔ List.Forall₂ (fun a b => f a = some b) l l' := by
  induction l generalizing l' with
  | nil => cases l' <;> simp
  | cons a rest ih =>
    simp only [List.mapM_cons, Option.bind_eq_bind, Option.bind_eq_some_iff, ih, Option.pure_def, Option.some.injEq]
    constructor
    · rintro ⟨b, hb, rest', hrest, rfl⟩
      exact .cons hb hrest
    · rintro (_ | ⟨hb, hrest⟩)
      exact ⟨_, hb, _, hrest, rfl⟩

/-- The names of an object denote texts exactly if they can all be read. -/
theorem mapM_names_eq_some {members : List (Literal × Value)} {members' : List (String × Value)} :
    (members.mapM fun m => m.1.map (·, m.2)) = some members' ↔ Value.object members = .ofMembers members' := by
  rw [mapM_eq_some_iff, Value.ofMembers, Value.object.injEq]
  constructor
  · intro h
    induction h with
    | nil => rfl
    | cons hm _ ih =>
      obtain ⟨name, hname, rfl⟩ := Option.map_eq_some_iff.mp hm
      rw [List.map_cons, ← ih, ← hname]
  · rintro rfl
    induction members' with
    | nil => exact .nil
    | cons m rest ih => exact .cons rfl ih

/-- The fields of an object are what it gives under their names, each given once if at all. -/
theorem fields?_eq_some {v : Value} (h : v.IsObject) {names : List String} {fields : List (Option Value)} :
    v.fields? names = some fields ↔
      v.HasNames ∧ List.Forall₂ (fun name field => v.given name = field.toList) names fields := by
  obtain ⟨members, rfl⟩ := h
  rw [Value.fields?, Option.bind_eq_bind, Option.bind_eq_some_iff]
  constructor
  · rintro ⟨members', hmembers, hfields⟩
    rw [mapM_names_eq_some] at hmembers
    rw [hmembers]
    simp only [mapM_eq_some_iff, member?_eq_some, ← given_ofMembers] at hfields
    exact ⟨⟨members', rfl⟩, hfields⟩
  · rintro ⟨⟨members', hmembers⟩, hfields⟩
    refine ⟨members', mapM_names_eq_some.mpr hmembers, ?_⟩
    rw [hmembers] at hfields
    simpa only [mapM_eq_some_iff, member?_eq_some, ← given_ofMembers] using hfields

/-- An object is read as a record of four fields with standard values. -/
theorem four_fields {α β γ δ σ : Type} [Codec α] [Codec β] [Codec γ] [Codec δ] {means₁ : Value → α → Prop}
    {means₂ : Value → β → Prop} {means₃ : Value → γ → Prop} {means₄ : Value → δ → Prop} (hmeans₁ : ReadsAs means₁)
    (hmeans₂ : ReadsAs means₂) (hmeans₃ : ReadsAs means₃) (hmeans₄ : ReadsAs means₄) {a b c d : String}
    {standard₁ : α} {standard₂ : β} {standard₃ : γ} {standard₄ : δ} (make : α → β → γ → δ → σ) {v : Value}
    (h : v.IsObject) {s : σ} :
    (do match ← v.fields? [a, b, c, d] with
        | [field₁, field₂, field₃, field₄] =>
          return make (← defaulted standard₁ field₁) (← defaulted standard₂ field₂) (← defaulted standard₃ field₃)
            (← defaulted standard₄ field₄)
        | _ => none) = some s ↔
      v.HasNames ∧ ∃ x₁ x₂ x₃ x₄, s = make x₁ x₂ x₃ x₄ ∧ Says means₁ standard₁ (v.given a) x₁ ∧
        Says means₂ standard₂ (v.given b) x₂ ∧ Says means₃ standard₃ (v.given c) x₃ ∧
        Says means₄ standard₄ (v.given d) x₄ := by
  simp only [Option.bind_eq_bind, Option.bind_eq_some_iff, fields?_eq_some h, says_iff hmeans₁, says_iff hmeans₂,
    says_iff hmeans₃, says_iff hmeans₄]
  constructor
  · rintro ⟨_, ⟨hnames, _ | ⟨h₁, _ | ⟨h₂, _ | ⟨h₃, _ | ⟨h₄, _ | _⟩⟩⟩⟩⟩, hread⟩
    simp only [Option.bind_eq_some_iff, Option.pure_def, Option.some.injEq] at hread
    obtain ⟨_, h₁', _, h₂', _, h₃', _, h₄', rfl⟩ := hread
    exact ⟨hnames, _, _, _, _, rfl, ⟨_, h₁, h₁'⟩, ⟨_, h₂, h₂'⟩, ⟨_, h₃, h₃'⟩, ⟨_, h₄, h₄'⟩⟩
  · rintro ⟨hnames, _, _, _, _, rfl, ⟨_, h₁, h₁'⟩, ⟨_, h₂, h₂'⟩, ⟨_, h₃, h₃'⟩, ⟨_, h₄, h₄'⟩⟩
    refine ⟨_, ⟨hnames, .cons h₁ (.cons h₂ (.cons h₃ (.cons h₄ .nil)))⟩, ?_⟩
    simp only [h₁', h₂', h₃', h₄', Option.bind_some, Option.pure_def]

/-! ### What values mean -/

/-- A finite number stands for itself, and an integer for the number nearest to it. -/
inductive MeansNumber : Value → Float → Prop where
  | float {x : Float} (h : x.isFinite = true) : MeansNumber (.float x) x
  | integer (n : ℤ) : MeansNumber (.integer n) (.ofInt n)

/-- A count is an integer of 32 bits without a sign. -/
inductive MeansCount : Value → UInt32 → Prop where
  | integer (n : UInt32) : MeansCount (.integer n.toNat) n

/-- A numeral that is given for a number means one that stands for its value. -/
theorem MeansNumber.standsFor {m : Numeral} {x : Float} (h : MeansNumber (.scalar m.scalar) x) :
    Number.StandsFor m.value x := by
  have hmeans := m.means_scalar
  generalize m.scalar = s at h hmeans
  cases hmeans with
  | @integer n written value =>
    cases h
    rw [value]
    exact Number.standsFor_ofInt (Numeral.natAbs_lt_of_isInteger written value)
  | float _ value _ =>
    cases h
    exact value

/-- A numeral that is given for a count means its value. -/
theorem MeansCount.value_eq {m : Numeral} {n : UInt32} (h : MeansCount (.scalar m.scalar) n) : m.value = n.toNat := by
  have hmeans := m.means_scalar
  generalize m.scalar = s at h hmeans
  cases h
  cases hmeans with
  | integer _ value => exact_mod_cast value

theorem readsAs_number : ReadsAs MeansNumber := by
  intro v x
  constructor
  · intro h
    rcases v with (_ | _ | n | y | _) | _ | _ <;> try cases h
    · exact .integer n
    · change (if y.isFinite then some y else none) = some x at h
      split at h <;> cases h
      exact .float ‹_›
  · rintro (h | n)
    · exact if_pos h
    · rfl

theorem readsAs_count : ReadsAs MeansCount := by
  intro v n
  constructor
  · intro h
    rcases v with (_ | _ | i | _ | _) | _ | _ <;> try cases h
    change (if 0 ≤ i ∧ i < UInt32.size then some (UInt32.ofNat i.toNat) else none) = some n at h
    split at h <;> cases h
    rename_i hrange
    obtain ⟨k, rfl⟩ := Int.eq_ofNat_of_zero_le hrange.1
    have hstored : (UInt32.ofNat k).toNat = k := UInt32.toNat_ofNat_of_lt' (by omega)
    have hmeans := MeansCount.integer (UInt32.ofNat k)
    rwa [hstored] at hmeans
  · rintro ⟨n⟩
    have hsmall : n.toNat < UInt32.size := n.toNat_lt
    show (if 0 ≤ (n.toNat : ℤ) ∧ (n.toNat : ℤ) < UInt32.size then some (UInt32.ofNat (n.toNat : ℤ).toNat) else none) = _
    rw [if_pos (by omega), Int.toNat_natCast, UInt32.ofNat_toNat]

theorem choice?_eq_some {v : Value} {name : String} {data : Option Value} :
    v.choice? = some (name, data) ↔
      v = .string name ∧ data = none ∨ ∃ v', v = .object [(some name, v')] ∧ data = some v' := by
  constructor
  · intro h
    unfold Value.choice? at h
    split at h
    · obtain ⟨_, rfl, hchoice⟩ := Option.map_eq_some_iff.mp h
      cases hchoice
      exact .inl ⟨rfl, rfl⟩
    · obtain ⟨_, rfl, hchoice⟩ := Option.map_eq_some_iff.mp h
      cases hchoice
      exact .inr ⟨_, rfl, rfl⟩
    · cases h
  · rintro (⟨rfl, rfl⟩ | ⟨v, rfl, rfl⟩) <;> rfl

end Json

open Json

/-- The names of the modes. -/
inductive DistanceMode.Named : String → DistanceMode → Prop where
  | moveSecond : Named "move_second" .moveSecond
  | symmetric : Named "symmetric" .symmetric

/-- A mode is given by its name, on its own or over `null`. -/
inductive DistanceMode.Means : Value → DistanceMode → Prop where
  | name {s : String} {m : DistanceMode} (h : Named s m) : Means (.string s) m
  | member {s : String} {m : DistanceMode} (h : Named s m) : Means (.object [(some s, .null)]) m

theorem DistanceMode.named_iff {s : String} {m : DistanceMode} :
    [moveSecond, .symmetric].find? (·.tag == s) = some m ↔ Named s m := by
  constructor
  · intro h
    obtain rfl : m.tag = s := by simpa using List.find?_some h
    cases m
    · exact .moveSecond
    · exact .symmetric
  · rintro (_ | _) <;> rfl

theorem DistanceMode.readsAs : ReadsAs DistanceMode.Means := by
  intro v m
  constructor
  · intro h
    obtain ⟨⟨s, data⟩, hchoice, h⟩ := Option.bind_eq_some_iff.mp h
    rcases choice?_eq_some.mp hchoice with ⟨rfl, rfl⟩ | ⟨v, rfl, rfl⟩
    · exact .name (named_iff.mp h)
    · rcases v with (_ | _ | _ | _ | _) | _ | _ <;> try cases h
      exact .member (named_iff.mp h)
  · rintro (h | h) <;> exact named_iff.mpr h

/-! ### Sections -/

/-- The settings of the solver are the ones that a section gives. -/
structure SolverSettings.Follows (said : String → List Value) (s : SolverSettings) : Prop where
  tolerance : Says MeansNumber ({} : SolverSettings).tolerance (said "tolerance") s.tolerance
  maxIterations : Says MeansCount ({} : SolverSettings).maxIterations (said "max_iterations") s.maxIterations
  damping : Says MeansNumber ({} : SolverSettings).damping (said "damping_factor") s.damping
  distanceMode : Says DistanceMode.Means ({} : SolverSettings).distanceMode (said "distance_mode") s.distanceMode

/-- The thresholds for suggestions are the ones that a section gives. -/
structure SuggestionSettings.Follows (said : String → List Value) (s : SuggestionSettings) : Prop where
  parallelDegrees : Says MeansNumber ({} : SuggestionSettings).parallelDegrees (said "parallel_threshold_deg")
    s.parallelDegrees
  perpendicularDegrees : Says MeansNumber ({} : SuggestionSettings).perpendicularDegrees
    (said "perpendicular_threshold_deg") s.perpendicularDegrees
  concentricDistance : Says MeansNumber ({} : SuggestionSettings).concentricDistance (said "concentric_distance")
    s.concentricDistance
  equalRadiusDelta : Says MeansNumber ({} : SuggestionSettings).equalRadiusDelta (said "equal_radius_delta")
    s.equalRadiusDelta

theorem SolverSettings.follows_nothing {s : SolverSettings} : s.Follows (fun _ => []) ↔ s = {} := by
  constructor
  · intro ⟨htolerance, hiterations, hdamping, hmode⟩
    cases s
    simp only [says_nil] at htolerance hiterations hdamping hmode
    rw [htolerance, hiterations, hdamping, hmode]
  · rintro rfl
    exact ⟨.standard, .standard, .standard, .standard⟩

theorem SuggestionSettings.follows_nothing {s : SuggestionSettings} : s.Follows (fun _ => []) ↔ s = {} := by
  constructor
  · intro ⟨hparallel, hperpendicular, hconcentric, hradius⟩
    cases s
    simp only [says_nil] at hparallel hperpendicular hconcentric hradius
    rw [hparallel, hperpendicular, hconcentric, hradius]
  · rintro rfl
    exact ⟨.standard, .standard, .standard, .standard⟩

theorem SolverSettings.decode?_eq_some {v : Value} (h : v.IsObject) {s : SolverSettings} :
    decode? v = some s ↔ v.HasNames ∧ s.Follows (v.given ·) := by
  refine (four_fields readsAs_number readsAs_count readsAs_number DistanceMode.readsAs SolverSettings.mk h).trans
    (and_congr_right' ?_)
  constructor
  · rintro ⟨_, _, _, _, rfl, htolerance, hiterations, hdamping, hmode⟩
    exact ⟨htolerance, hiterations, hdamping, hmode⟩
  · intro ⟨htolerance, hiterations, hdamping, hmode⟩
    exact ⟨_, _, _, _, rfl, htolerance, hiterations, hdamping, hmode⟩

theorem SuggestionSettings.decode?_eq_some {v : Value} (h : v.IsObject) {s : SuggestionSettings} :
    decode? v = some s ↔ v.HasNames ∧ s.Follows (v.given ·) := by
  refine (four_fields readsAs_number readsAs_number readsAs_number readsAs_number SuggestionSettings.mk h).trans
    (and_congr_right' ?_)
  constructor
  · rintro ⟨_, _, _, _, rfl, hparallel, hperpendicular, hconcentric, hradius⟩
    exact ⟨hparallel, hperpendicular, hconcentric, hradius⟩
  · intro ⟨hparallel, hperpendicular, hconcentric, hradius⟩
    exact ⟨_, _, _, _, rfl, hparallel, hperpendicular, hconcentric, hradius⟩

/-! ### Documents -/

namespace Settings

/-- The sections of a document. -/
def sections : List String := ["solver", "auto_constraints"]

/-- All values that a document gives for a setting of a section. -/
def said (document : Value) (part name : String) : List Value := (document.given part).flatMap (·.given name)

/-- The document and its sections are written as objects. -/
def IsDocument (document : Value) : Prop :=
  document.IsObject ∧ ∀ part ∈ sections, ∀ v ∈ document.given part, v.IsObject

/-- Settings are those of a document: every setting has the value that is given for it, and its standard value where
none is given. -/
structure Reads (document : Value) (s : Settings) : Prop where
  solver : s.solver.Follows (said document "solver")
  suggestions : s.suggestions.Follows (said document "auto_constraints")
  /-- No section is given twice. -/
  once : ∀ part ∈ sections, (document.given part).length ≤ 1
  names : document.HasNames
  partNames : ∀ part ∈ sections, ∀ v ∈ document.given part, v.HasNames

/-- Reading a section is reading each of its settings. -/
theorem says_section {α : Type} [Codec α] {standard : α} (P : (String → List Value) → α → Prop) (document : Value)
    (part : String) (a : α) (hnothing : P (fun _ => []) a ↔ a = standard)
    (hread : ∀ v ∈ document.given part, decode? v = some a ↔ v.HasNames ∧ P (v.given ·) a) :
    Says (decode? · = some ·) standard (document.given part) a ↔
      (document.given part).length ≤ 1 ∧ (∀ v ∈ document.given part, v.HasNames) ∧ P (said document part) a := by
  unfold said
  generalize document.given part = values at hread
  rcases values with _ | ⟨v, _ | ⟨v', rest⟩⟩
  · simp only [says_nil, List.flatMap_nil, hnothing]
    simp
  · simp only [List.flatMap_cons, List.flatMap_nil, List.append_nil]
    have hsection : Says (decode? · = some ·) standard [v] a ↔ decode? v = some a := ⟨fun | .given h => h, fun h => .given h⟩
    rw [hsection, hread v List.mem_cons_self]
    simp
  · refine iff_of_false (fun h => by cases h) ?_
    rintro ⟨hlength, _⟩
    simp at hlength

theorem decode?_iff_sections {document : Value} (h : document.IsObject) {s : Settings} :
    decode? document = some s ↔ document.HasNames ∧
      Says (decode? · = some ·) {} (document.given "solver") s.solver ∧
      Says (decode? · = some ·) {} (document.given "auto_constraints") s.suggestions := by
  show (document.fields? _).bind _ = _ ↔ _
  simp only [Option.bind_eq_bind, Option.bind_eq_some_iff, fields?_eq_some h, says_iff fun _ _ => Iff.rfl]
  constructor
  · rintro ⟨_, ⟨hnames, _ | ⟨hsolver, _ | ⟨hsuggestions, _ | _⟩⟩⟩, hread⟩
    simp only [Option.bind_eq_some_iff, Option.pure_def, Option.some.injEq] at hread
    obtain ⟨_, hsolver', _, hsuggestions', rfl⟩ := hread
    exact ⟨hnames, ⟨_, hsolver, hsolver'⟩, ⟨_, hsuggestions, hsuggestions'⟩⟩
  · rintro ⟨hnames, ⟨_, hsolver, hsolver'⟩, ⟨_, hsuggestions, hsuggestions'⟩⟩
    refine ⟨_, ⟨hnames, .cons hsolver (.cons hsuggestions .nil)⟩, ?_⟩
    simp only [hsolver', hsuggestions', Option.bind_some, Option.pure_def]

/-- A document of objects is read exactly as the settings that it gives. -/
theorem decode?_eq_some {document : Value} (h : IsDocument document) {s : Settings} :
    decode? document = some s ↔ s.Reads document := by
  obtain ⟨hobject, hparts⟩ := h
  have hsolver := says_section SolverSettings.Follows document "solver" s.solver
    SolverSettings.follows_nothing fun v hv => SolverSettings.decode?_eq_some (hparts _ (by decide) v hv)
  have hsuggestions := says_section SuggestionSettings.Follows document "auto_constraints" s.suggestions
    SuggestionSettings.follows_nothing
    fun v hv => SuggestionSettings.decode?_eq_some (hparts _ (by decide) v hv)
  rw [decode?_iff_sections hobject, hsolver, hsuggestions]
  constructor
  · intro ⟨hnames, ⟨honce, hpart, hfollows⟩, ⟨honce', hpart', hfollows'⟩⟩
    exact ⟨hfollows, hfollows', by simp [sections, honce, honce'], hnames, by simpa [sections] using ⟨hpart, hpart'⟩⟩
  · intro ⟨hfollows, hfollows', honce, hnames, hpart⟩
    simp only [sections, List.forall_mem_cons] at honce hpart
    exact ⟨hnames, ⟨honce.1, hpart.1, hfollows⟩, honce.2.1, hpart.2.1, hfollows'⟩

/-! ### Loading -/

variable {text : String} {s : Settings}

/-- What is read is checked. -/
theorem ofText_of_read (h : (Json.ofText? text).bind decode? = some s) : ofText text = s.check.map fun _ => s := by
  rw [ofText, h]
  cases hcheck : s.check <;> simp [hcheck, Except.map, bind, Except.bind, pure, Except.pure]

theorem ofText_of_unread (h : (Json.ofText? text).bind decode? = (none : Option Settings)) :
    ofText text = .error .unreadable := by
  rw [ofText, h]
  rfl

theorem ofText_eq_ok : ofText text = .ok s ↔ (Json.ofText? text).bind decode? = some s ∧ s.InRange := by
  cases hread : (Json.ofText? text).bind (decode? : Value → Option Settings) with
  | none => simp [ofText_of_unread hread]
  | some c =>
    rw [ofText_of_read hread, Option.some.injEq, ← check_eq_ok]
    cases hcheck : c.check with
    | ok _ =>
      constructor
      · intro h
        cases h
        exact ⟨rfl, hcheck⟩
      · rintro ⟨rfl, _⟩
        rfl
    | error e =>
      refine iff_of_false nofun ?_
      rintro ⟨rfl, hok⟩
      cases hcheck.symm.trans hok

/-- Settings that can be read are refused for the first one that is out of range. -/
theorem ofText_of_misfit (h : (Json.ofText? text).bind decode? = some s) (hrange : ¬ s.InRange) :
    ∃ setting, s.FirstMisfit setting ∧ ofText text = .error (.outOfRange setting (s.value? setting)) := by
  cases hcheck : s.check with
  | ok _ => exact absurd (check_eq_ok.mp hcheck) hrange
  | error e =>
    obtain ⟨setting, hfirst, rfl⟩ := check_eq_error.mp hcheck
    exact ⟨setting, hfirst, by rw [ofText_of_read h, hcheck]; rfl⟩

/-- **Settings are loaded as a document gives them, and only in range.** What a document gives is what its text spells;
a numeral there means its value, exactly if a count is asked for and nearly if a number is. A document of objects
loads exactly the settings that it gives, where they are in range, and is refused for the first one that is not.
Solvers and sessions take the settings in range as well, and refuse others for the same reason. -/
theorem ofText_objects :
    (∀ m : Numeral, m.Means m.scalar ∧
      (∀ x, MeansNumber (.scalar m.scalar) x → Number.StandsFor m.value x) ∧
      ∀ n, MeansCount (.scalar m.scalar) n → m.value = n.toNat) ∧
    (∀ text document, Spells text.toList document → IsDocument document →
      (∀ s : Settings, ofText text = .ok s ↔ s.Reads document ∧ s.InRange) ∧
      (∀ s : Settings, s.Reads document → ¬ s.InRange →
        ∃ setting, s.FirstMisfit setting ∧ ofText text = .error (.outOfRange setting (s.value? setting))) ∧
      ((∀ s : Settings, ¬ s.Reads document) → ofText text = .error .unreadable)) ∧
    (∀ s : SolverSettings,
      ((∃ solver, Solver.ofSettings s = .ok solver) ↔ ∀ setting ∈ Setting.ofSolver, Keeps ⟨s, {}⟩ setting) ∧
      ∀ e, Solver.ofSettings s = .error e ↔ s.check = .error e) ∧
    (∀ (s : Settings) series hasStore,
      ((∃ session, Session.ofSettings s series hasStore = .ok session) ↔ s.InRange) ∧
      ∀ e, Session.ofSettings s series hasStore = .error e ↔ s.check = .error e) := by
  refine ⟨fun m => ⟨m.means_scalar, fun _ => MeansNumber.standsFor, fun _ => MeansCount.value_eq⟩, fun text document htext hdocument => ?_, fun s => ?_, fun s series hasStore => ?_⟩
  · have hread {s : Settings} : (Json.ofText? text).bind decode? = some s ↔ s.Reads document := by
      rw [htext.ofText?_eq, Option.bind_some, decode?_eq_some hdocument]
    refine ⟨fun s => by rw [ofText_eq_ok, hread], fun s hs hrange => ofText_of_misfit (hread.mpr hs) hrange, ?_⟩
    intro hnone
    exact ofText_of_unread (Option.eq_none_iff_forall_ne_some.mpr fun s hs => hnone s (hread.mp hs))
  · rw [Solver.ofSettings_eq, ← walk_eq_ok, ← solver_check_eq_walk]
    cases s.check <;> simp [Except.map]
  · rw [Session.ofSettings_eq, ← check_eq_ok]
    cases s.check <;> simp [Except.map]

/-- A document from its sections, each with what it gives. -/
def document (parts : List (String × List (String × Value))) : Value :=
  .ofMembers (parts.map fun part => (part.1, .ofMembers part.2))

theorem hasNames_of_mem_given {parts : List (String × List (String × Value))} {part : String} {v : Value}
    (h : v ∈ (document parts).given part) : v.HasNames := by
  rw [document, given_ofMembers] at h
  obtain ⟨_, hmem, rfl⟩ := List.mem_map.mp h
  obtain ⟨⟨_, members⟩, _, rfl⟩ := List.mem_map.mp (List.mem_filter.mp hmem).1
  exact ⟨members, rfl⟩

theorem isDocument_document (parts : List (String × List (String × Value))) : IsDocument (document parts) :=
  ⟨⟨_, rfl⟩, fun _ _ _ hv => (hasNames_of_mem_given hv).isObject⟩

/-- A document that gives a mode, a count and a decimal threshold, and a member that stands for no setting, and one that
asks for no tolerance at all. -/
theorem ofText_objects_partial :
    let degrees : Numeral := ⟨false, ['2'], ['5'], none, by simp, by simp, by simp, by simp⟩
    let loose := document
      [("solver", [("distance_mode", .string "symmetric"), ("max_iterations", .integer 25)]),
        ("auto_constraints", [("parallel_threshold_deg", .float 2.5), ("x", .array [])])]
    let strict := document [("solver", [("tolerance", .integer 0)])]
    let text := "\x7b\"solver\": \x7b\"distance_mode\": \"symmetric\",\"max_iterations\": 25\x7d," ++
      "\"auto_constraints\": \x7b\"parallel_threshold_deg\": 2.5,\"x\": []\x7d\x7d"
    let text' := "\x7b\"solver\": \x7b\"tolerance\": 0\x7d\x7d"
    let refused : Settings := { solver := { tolerance := 0.0 } }
    degrees.value = 5 / 2 ∧ degrees.Means (.float 2.5) ∧ Spells text.toList loose ∧ Spells text'.toList strict ∧
      ofText text = .ok { solver := { maxIterations := 25, distanceMode := .symmetric },
                          suggestions := { parallelDegrees := 2.5 } } ∧
      ∃ setting, refused.FirstMisfit setting ∧
        ofText text' = .error (.outOfRange setting (refused.value? setting)) := by
  intro degrees loose strict text text' refused
  have hvalue : degrees.value = 5 / 2 := by
    have hdigits : degrees.digits = 25 := rfl
    have hscale : degrees.scale = -1 := rfl
    rw [Numeral.value, hdigits, hscale]
    norm_num [degrees]
  have hdegrees : degrees.scalar = .float 2.5 := by decide +kernel
  have hloose : Spells text.toList loose := by
    have hmode : Spells ('"' :: ("symmetric".toList ++ ['"'])) (.string "symmetric") :=
      .string (.plain (by simp [IsPlain]))
    have hcount : Spells ['2', '5'] (.integer 25) :=
      .number ⟨false, ['2', '5'], [], none, by simp, by simp, by simp, by simp⟩
    have hdecimal : Spells ['2', '.', '5'] (.float 2.5) := by
      rw [Value.float, ← hdegrees]
      exact .number degrees
    have hitems : Spells ['[', ']'] (.array []) := @Spells.emptyArray [] (by simp [Blanks])
    have hsolver := @Spells.plain [("distance_mode", _, _), ("max_iterations", _, _)] (by simp [IsPlain])
      (by simpa using ⟨hmode, hcount⟩)
    have hsuggestions := @Spells.plain [("parallel_threshold_deg", _, _), ("x", _, _)] (by simp [IsPlain])
      (by simpa using ⟨hdecimal, hitems⟩)
    have hdocument := @Spells.plain [("solver", _, _), ("auto_constraints", _, _)] (by simp [IsPlain])
      (by simpa using ⟨hsolver, hsuggestions⟩)
    exact Eq.subst (motive := (Spells · loose)) (by decide +kernel) hdocument
  have hstrict : Spells text'.toList strict := by
    have hzero : Spells ['0'] (.integer 0) := .number ⟨false, ['0'], [], none, by simp, by simp, by simp, by simp⟩
    have hsolver := @Spells.plain [("tolerance", _, _)] (by simp [IsPlain]) (by simpa using hzero)
    have hdocument := @Spells.plain [("solver", _, _)] (by simp [IsPlain]) (by simpa using hsolver)
    exact Eq.subst (motive := (Spells · strict)) (by decide +kernel) hdocument
  have hreads : Reads loose { solver := { maxIterations := 25, distanceMode := .symmetric },
                              suggestions := { parallelDegrees := 2.5 } } :=
    { solver := ⟨.standard, .given (.integer 25), .standard, .given (.name .symmetric)⟩
      suggestions := ⟨.given (.float (by decide +kernel)), .standard, .standard, .standard⟩
      once := by decide
      names := ⟨_, rfl⟩
      partNames := fun _ _ _ hv => hasNames_of_mem_given hv }
  have hnothing : MeansNumber (.integer 0) 0.0 := by
    have hzero : Float.ofInt 0 = 0.0 := by decide +kernel
    exact hzero ▸ .integer 0
  have hreads' : Reads strict refused :=
    { solver := ⟨.given hnothing, .standard, .standard, .standard⟩
      suggestions := ⟨.standard, .standard, .standard, .standard⟩
      once := by decide
      names := ⟨_, rfl⟩
      partNames := fun _ _ _ hv => hasNames_of_mem_given hv }
  have hmisfit : ¬ refused.InRange := fun h => absurd (h .tolerance) (by decide +kernel)
  obtain ⟨hmeans, hload, _⟩ := ofText_objects
  obtain ⟨hloads, _⟩ := hload text loose hloose (isDocument_document _)
  obtain ⟨_, hrefuses, _⟩ := hload text' strict hstrict (isDocument_document _)
  exact ⟨hvalue, hdegrees ▸ (hmeans degrees).1, hloose, hstrict,
    (hloads _).mpr ⟨hreads, check_eq_ok.mp (by decide +kernel)⟩, hrefuses refused hreads' hmisfit⟩

end Settings

end Drafting
