import Drafting.Json.Reader

/-! Reading what has been written: the tokens of a value.

A value is written as a row of tokens, its parts in order (`Value.tokens`). The reader
works through the tokens of a part as it would without the arrays and objects that
are open around it, and comes to stand behind this part with all of them as they were
(`Value.IsRead`). So items and members come in one behind the other until the bracket
closes (`steps_items`, `steps_members`), and by induction on the value every value is
read from its tokens. On the other hand an array or an object that has been opened
leaves its trace up to the end (`Reader.Compound`), so whatever is read as a scalar
is this scalar alone (`ofTokens?_eq_scalar`). -/
namespace Drafting.Json

/-! ### The tokens of a value -/

mutual

/-- The tokens that a value is written with. -/
def Value.tokens : Value → List Token
  | .scalar s => [.scalar s]
  | .array items => .openArray :: ([.comma].intercalate (tokensOfItems items) ++ [.closeArray])
  | .object members => .openObject :: ([.comma].intercalate (tokensOfMembers members) ++ [.closeObject])

private def tokensOfItems : List Value → List (List Token)
  | [] => []
  | v :: rest => v.tokens :: tokensOfItems rest

private def tokensOfMembers : List (Literal × Value) → List (List Token)
  | [] => []
  | (k, v) :: rest => (.scalar (.string k) :: .colon :: v.tokens) :: tokensOfMembers rest

end

/-- The tokens of a member: its name, a colon and its value. -/
def memberTokens (m : Literal × Value) : List Token := .scalar (.string m.1) :: .colon :: m.2.tokens

private theorem tokensOfItems_eq (items : List Value) : tokensOfItems items = items.map Value.tokens := by
  induction items with
  | nil => rfl
  | cons v rest ih => rw [tokensOfItems, ih, List.map_cons]

private theorem tokensOfMembers_eq (members : List (Literal × Value)) :
    tokensOfMembers members = members.map memberTokens := by
  induction members with
  | nil => rfl
  | cons m rest ih => rw [tokensOfMembers, ih, List.map_cons, memberTokens]

theorem Value.tokens_array (items : List Value) :
    (Value.array items).tokens = .openArray :: ([.comma].intercalate (items.map tokens) ++ [.closeArray]) := by
  rw [tokens, tokensOfItems_eq]

theorem Value.tokens_object (members : List (Literal × Value)) :
    (Value.object members).tokens =
      .openObject :: ([.comma].intercalate (members.map memberTokens) ++ [.closeObject]) := by
  rw [tokens, tokensOfMembers_eq]

/-! ### The reader -/

namespace Reader

theorem step_firstItem {stack : List Frame} {t : Token} (h : t ≠ .closeArray) :
    step ⟨stack, .firstItem⟩ t = step ⟨.array [] :: stack, .value⟩ t := by
  cases t <;> first | rfl | exact absurd rfl h

/-- The reader behind a row of tokens. -/
def steps (r : Reader) (ts : List Token) : Option Reader := ts.foldlM step r

theorem steps_cons (r : Reader) (t : Token) (ts : List Token) : r.steps (t :: ts) = (r.step t).bind (·.steps ts) := rfl

theorem steps_append (r : Reader) (ts ts' : List Token) : r.steps (ts ++ ts') = (r.steps ts).bind (·.steps ts') :=
  List.foldlM_append

/-- Something is open, or was. -/
def Compound (r : Reader) : Prop :=
  r.stack = [] → match r.mode with
    | .value | .after (.scalar _) => False
    | _ => True

theorem compound_openValue {frame : Frame} {stack : List Frame} {t : Token} {r : Reader}
    (h : openValue (frame :: stack) t = some r) : r.Compound := by
  unfold openValue at h
  split at h <;> cases h <;> nofun

theorem compound_closeValue {v : Value} {stack : List Frame} {t : Token} {r : Reader}
    (h : closeValue v stack t = some r) : r.Compound := by
  unfold closeValue at h
  split at h <;> cases h <;> simp [Compound]

/-- What has been opened is never forgotten. -/
theorem Compound.step {r r' : Reader} {t : Token} (h : r.Compound) (hstep : r.step t = some r') : r'.Compound := by
  obtain ⟨stack, mode⟩ := r
  cases mode with
  | value =>
    cases stack with
    | nil => exact (h rfl).elim
    | cons frame stack => exact compound_openValue hstep
  | firstItem =>
    by_cases hclose : t = .closeArray
    · subst hclose
      cases hstep
      simp [Compound]
    · rw [step_firstItem hclose] at hstep
      exact compound_openValue hstep
  | after v => exact compound_closeValue hstep
  | firstName | name | colon =>
    rcases t with _ | _ | _ | _ | _ | _ | _ | _ | _ | _ | _ <;> cases hstep <;> simp [Compound]

theorem Compound.steps {r r' : Reader} {ts : List Token} (h : r.Compound) (hrun : r.steps ts = some r') :
    r'.Compound := by
  induction ts generalizing r with
  | nil =>
    cases hrun
    exact h
  | cons t ts ih =>
    obtain ⟨next, hstep, hrun⟩ := Option.bind_eq_some_iff.mp hrun
    exact ih (h.step hstep) hrun

theorem result?_eq_some {r : Reader} {v : Value} : r.result? = some v ↔ r = ⟨[], .after v⟩ := by
  obtain ⟨stack, mode⟩ := r
  unfold result?
  split <;> simp_all

end Reader

/-- Only a scalar is read as one. -/
theorem ofTokens?_eq_scalar {ts : List Token} {s : Scalar} (h : ofTokens? ts = some (.scalar s)) :
    ts = [.scalar s] := by
  obtain ⟨r, hrun, hresult⟩ := Option.bind_eq_some_iff.mp h
  obtain rfl := Reader.result?_eq_some.mp hresult
  cases ts with
  | nil => cases hrun
  | cons t ts =>
    obtain ⟨next, hstep, hrun⟩ :
        ∃ next, Reader.initial.step t = some next ∧ next.steps ts = some ⟨[], .after (.scalar s)⟩ :=
      Option.bind_eq_some_iff.mp hrun
    cases t with
    | scalar s' =>
      cases hstep
      cases ts with
      | nil =>
        cases hrun
        rfl
      | cons t ts =>
        rw [Reader.steps_cons] at hrun
        obtain ⟨_, hstep, _⟩ := Option.bind_eq_some_iff.mp hrun
        cases hstep
    | openArray | openObject =>
      cases hstep
      have hcompound : Reader.Compound ⟨[], .after (.scalar s)⟩ :=
        Reader.Compound.steps (by simp [Reader.Compound]) hrun
      exact (hcompound rfl).elim
    | closeArray | closeObject | comma | colon => cases hstep

/-- Parts with commas between them come in one by one, up to a closing mark. While they do, the reader is `waiting`
for the next one or stands `behind` one, with the parts before it in reverse. -/
theorem Reader.steps_parts {α : Type} {f : α → List Token} {mark : Token} (waiting : List α → Reader)
    (behind : List α → α → Reader) (closed : List α → Reader) {first : α} {l : List α}
    (hpart : ∀ a ∈ first :: l, ∀ parts, (waiting parts).steps (f a) = some (behind parts a))
    (hcomma : ∀ parts a, (behind parts a).step .comma = some (waiting (a :: parts)))
    (hmark : ∀ parts a, (behind parts a).step mark = some (closed (a :: parts).reverse)) (parts : List α) :
    (waiting parts).steps ([.comma].intercalate ((first :: l).map f) ++ [mark]) =
      some (closed (parts.reverse ++ first :: l)) := by
  induction l generalizing first parts with
  | nil =>
    rw [List.map_singleton, List.intercalate_singleton, steps_append, hpart first List.mem_cons_self, Option.bind_some,
      steps_cons, hmark, List.reverse_cons]
    rfl
  | cons a l ih =>
    obtain ⟨hfirst, hrest⟩ := List.forall_mem_cons.mp hpart
    have htail := ih hrest (first :: parts)
    rw [List.reverse_cons, List.append_assoc, List.singleton_append] at htail
    rw [List.map_cons, List.map_cons, List.intercalate_cons_cons, ← List.map_cons, List.append_assoc, List.append_assoc,
      steps_append, hfirst, Option.bind_some, List.singleton_append, steps_cons, hcomma, Option.bind_some, htail]

/-- The reader takes a value from its tokens, whatever is open. -/
def Value.IsRead (v : Value) : Prop := ∀ stack, Reader.steps ⟨stack, .value⟩ v.tokens = some ⟨stack, .after v⟩

/-- The items of an array, up to its end. -/
theorem steps_items {v : Value} {l : List Value} (h : ∀ w ∈ v :: l, w.IsRead) (stack : List Frame) :
    Reader.steps ⟨.array [] :: stack, .value⟩ ([.comma].intercalate ((v :: l).map Value.tokens) ++ [.closeArray]) =
      some ⟨stack, .after (.array (v :: l))⟩ :=
  Reader.steps_parts (fun items => ⟨.array items :: stack, .value⟩) (fun items w => ⟨.array items :: stack, .after w⟩)
    (fun items => ⟨stack, .after (.array items)⟩) (fun w hw items => h w hw (.array items :: stack)) (fun _ _ => rfl)
    (fun _ _ => rfl) []

/-- The members of an object, up to its end. -/
theorem steps_members {m : Literal × Value} {l : List (Literal × Value)} (h : ∀ m' ∈ m :: l, m'.2.IsRead)
    (stack : List Frame) :
    Reader.steps ⟨stack, .name []⟩ ([.comma].intercalate ((m :: l).map memberTokens) ++ [.closeObject]) =
      some ⟨stack, .after (.object (m :: l))⟩ :=
  Reader.steps_parts (f := memberTokens) (fun members => ⟨stack, .name members⟩)
    (fun members m => ⟨.object members m.1 :: stack, .after m.2⟩) (fun members => ⟨stack, .after (.object members)⟩)
    (fun m hm members => h m hm (.object members m.1 :: stack))
    (fun _ _ => rfl) (fun _ _ => rfl) []

/-! ### Every value -/

/-- What holds of scalars, and of arrays and objects of values that it holds of, holds of all values. -/
@[elab_as_elim]
theorem Value.induction {motive : Value → Prop} (scalar : ∀ s, motive (.scalar s))
    (array : ∀ items, (∀ v ∈ items, motive v) → motive (.array items))
    (object : ∀ members, (∀ m ∈ members, motive m.2) → motive (.object members)) (v : Value) : motive v :=
  @Value.rec motive (fun items => ∀ v ∈ items, motive v) (fun members => ∀ m ∈ members, motive m.2)
    (fun m => motive m.2) scalar array object nofun (fun _ _ hv hrest => List.forall_mem_cons.mpr ⟨hv, hrest⟩) nofun
    (fun _ _ hm hrest => List.forall_mem_cons.mpr ⟨hm, hrest⟩) (fun _ _ hv => hv) v

/-- A joined row begins with its first part. -/
theorem exists_intercalate_cons {α : Type} (separator front : List α) (l : List (List α)) :
    ∃ back, separator.intercalate (front :: l) = front ++ back := by
  cases l with
  | nil => exact ⟨[], by rw [List.intercalate_singleton, List.append_nil]⟩
  | cons part l => exact ⟨_, by rw [List.intercalate_cons_cons, List.append_assoc]⟩

/-- The tokens of a value do not begin with the end of an array. -/
theorem Value.exists_tokens (v : Value) : ∃ t ts, v.tokens = t :: ts ∧ t ≠ .closeArray := by
  cases v with
  | scalar s => exact ⟨_, _, rfl, nofun⟩
  | array items => exact ⟨_, _, tokens_array items, nofun⟩
  | object members => exact ⟨_, _, tokens_object members, nofun⟩

/-- **Every value is read from its tokens.** -/
theorem Value.isRead (v : Value) : v.IsRead := by
  induction v using Value.induction with
  | scalar s => exact fun _ => rfl
  | array items ih =>
    intro stack
    rw [tokens_array]
    show Reader.steps ⟨stack, .firstItem⟩ _ = _
    cases items with
    | nil => rfl
    | cons v l =>
      have hitems := steps_items ih stack
      obtain ⟨t, ts, htokens, hopen⟩ := v.exists_tokens
      obtain ⟨back, hback⟩ := exists_intercalate_cons [.comma] v.tokens (l.map tokens)
      rw [List.map_cons, hback, htokens, List.cons_append, List.cons_append, Reader.steps_cons] at hitems ⊢
      rw [Reader.step_firstItem hopen]
      exact hitems
  | object members ih =>
    intro stack
    rw [tokens_object]
    show Reader.steps ⟨stack, .firstName⟩ _ = _
    cases members with
    | nil => rfl
    | cons m l =>
      have hmembers := steps_members ih stack
      obtain ⟨back, hback⟩ := exists_intercalate_cons [.comma] (memberTokens m) (l.map memberTokens)
      rw [List.map_cons, hback] at hmembers ⊢
      exact hmembers

end Drafting.Json
