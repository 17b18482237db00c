import Drafting.Proofs.Json.Reader
import Drafting.Proofs.Json.Token

/-! What is written as text is read from it.

Where a value ends, a comma, a closing bracket or a blank follows, or nothing. None of these can
go on a number, so in front of them the text of a value is cut into its own tokens, and
what follows is cut as if it stood alone (`Yields`). This is true of scalars, and a
mark behind each part carries it over to arrays and objects (`yields_array`, `yields_object`).
From its tokens every value is read. What a value needs for all this is that its
scalars can be read from their own texts (`Value.Legible`): integers of 64 bits can,
and texts can, and of a floating point number it is taken as given. -/
namespace Drafting.Json

/-! ### Cutting a text into tokens -/

/-- Where nothing or the rest of an array or object follows, a text is cut into these tokens. -/
def Yields (cs : List Char) (ts : List Token) : Prop :=
  ∀ rest, Closing rest → tokens? (cs ++ rest) = (tokens? rest).map (ts ++ ·)

theorem tokens?_of_token? {cs rest : List Char} {t : Token} (h : token? cs = some (t, rest))
    (hless : rest.length < cs.length) : tokens? cs = (tokens? rest).map (t :: ·) := by
  cases cs with
  | nil => cases hless
  | cons c cs =>
    by_cases hblank : isBlank c = true
    · rw [token?_blank hblank] at h
      cases h
    · rw [tokens?, if_neg hblank, h]
      show (if rest.length ≤ cs.length then _ else _) = _
      rw [if_pos (Nat.le_of_lt_succ hless)]
      cases tokens? rest <;> rfl

/-- The marks that can stand behind a value. -/
inductive Mark : Char → Token → Prop where
  | comma : Mark ',' .comma
  | closeArray : Mark ']' .closeArray
  | closeObject : Mark '\x7d' .closeObject

/-- A mark ends what stands in front of it, and is a token of its own. -/
theorem Yields.mark {cs : List Char} {ts : List Token} (h : Yields cs ts) {c : Char} {t : Token} (hmark : Mark c t)
    (rest : List Char) : tokens? (cs ++ c :: rest) = (tokens? rest).map fun more => ts ++ t :: more := by
  have hend : Closing (c :: rest) := by
    intro d hd
    cases hd
    cases hmark <;> decide
  have htoken : token? (c :: rest) = some (t, rest) := by cases hmark <;> rfl
  rw [h _ hend, tokens?_of_token? htoken (Nat.lt_succ_self _), Option.map_map]
  rfl

theorem yields_intercalate {α : Type} {f : α → List Char} {g : α → List Token} {l : List α}
    (h : ∀ a ∈ l, Yields (f a) (g a)) : Yields ([','].intercalate (l.map f)) ([.comma].intercalate (l.map g)) := by
  induction l with
  | nil =>
    intro rest _
    exact Option.map_id'.symm
  | cons a l ih =>
    obtain ⟨ha, hl⟩ := List.forall_mem_cons.mp h
    cases l with
    | nil => simpa using ha
    | cons b l =>
      intro rest hrest
      have hcomma := ha.mark .comma ([','].intercalate ((b :: l).map f) ++ rest)
      have htail := ih hl rest hrest
      rw [htail, Option.map_map] at hcomma
      simp only [List.map_cons, List.intercalate_cons_cons, List.append_assoc, List.cons_append, List.nil_append]
        at hcomma ⊢
      exact hcomma

/-- An array is its items between brackets. -/
theorem yields_array {α : Type} {f : α → List Char} {g : α → Value} {l : List α}
    (h : ∀ a ∈ l, Yields (f a) (g a).tokens) :
    Yields ('[' :: ([','].intercalate (l.map f) ++ [']'])) (Value.array (l.map g)).tokens := by
  intro rest _
  have hclose := (yields_intercalate h).mark .closeArray rest
  have htext : '[' :: ([','].intercalate (l.map f) ++ [']']) ++ rest =
      '[' :: ([','].intercalate (l.map f) ++ ']' :: rest) := by
    simp
  rw [htext, Value.tokens_array, tokens?_of_token? rfl (Nat.lt_succ_self _), hclose, Option.map_map]
  simp [Function.comp_def]

/-- An object is its members between braces. -/
theorem yields_object {α : Type} {f : α → List Char} {g : α → Literal × Value} {l : List α}
    (h : ∀ a ∈ l, Yields (f a) (memberTokens (g a))) :
    Yields ('\x7b' :: ([','].intercalate (l.map f) ++ ['\x7d'])) (Value.object (l.map g)).tokens := by
  intro rest _
  have hclose := (yields_intercalate h).mark .closeObject rest
  have htext : '\x7b' :: ([','].intercalate (l.map f) ++ ['\x7d']) ++ rest =
      '\x7b' :: ([','].intercalate (l.map f) ++ '\x7d' :: rest) := by
    simp
  rw [htext, Value.tokens_object, tokens?_of_token? rfl (Nat.lt_succ_self _), hclose, Option.map_map]
  simp [Function.comp_def]

/-- A member is its name, a colon and its value. -/
theorem yields_member {name cs : List Char} {literal : Literal} {v : Value}
    (hname : ∀ rest, tokens? (name ++ ':' :: rest) = (tokens? (':' :: rest)).map (.scalar (.string literal) :: ·))
    (h : Yields cs v.tokens) : Yields (name ++ ':' :: cs) (memberTokens (literal, v)) := by
  intro rest hrest
  rw [List.append_assoc, List.cons_append, hname, tokens?_of_token? rfl (Nat.lt_succ_self _), h rest hrest,
    Option.map_map, Option.map_map]
  rfl

/-- A text that is cut into the tokens of a value is read as this value. -/
theorem ofText?_of_yields {s : String} {v : Value} (h : Yields s.toList v.tokens) : ofText? s = some v := by
  have htokens : tokens? s.toList = some v.tokens := by
    have hyields := h [] nofun
    rw [List.append_nil, tokens?, Option.map_some, List.append_nil] at hyields
    exact hyields
  have hread : Reader.steps .initial v.tokens = some ⟨[], .after v⟩ := Value.isRead v []
  rw [ofText?, htokens]
  show (Reader.steps .initial v.tokens).bind Reader.result? = some v
  rw [hread]
  rfl

/-! ### Legible values -/

/-- A finite number whose text is read as this number. -/
def Legible (x : Float) : Prop := x.isFinite = true ∧ ofText? (Number.literal.text x) = some (.float x)

/-- A scalar that can be read from its text: an integer must have 64 bits, and a literal must denote a text. -/
def Scalar.Legible : Scalar → Prop
  | .integer n => -2 ^ 63 ≤ n ∧ n < 2 ^ 64
  | .float x => Json.Legible x
  | .string s => s.isSome = true
  | _ => True

/-- A value whose scalars are legible and whose names denote texts. -/
inductive Value.Legible : Value → Prop where
  | scalar {s : Scalar} (h : s.Legible) : Legible (.scalar s)
  | array {items : List Value} (h : ∀ v ∈ items, Legible v) : Legible (.array items)
  | object {members : List (Literal × Value)} (names : ∀ m ∈ members, m.1.isSome = true)
      (values : ∀ m ∈ members, Legible m.2) : Legible (.object members)

theorem yields_of_token? {cs : List Char} {t : Token}
    (h : ∀ rest, Closing rest → token? (cs ++ rest) = some (t, rest)) : Yields cs [t] := by
  have hnonempty : cs ≠ [] := by
    rintro rfl
    cases h [] nofun
  intro rest hrest
  refine tokens?_of_token? (h rest hrest) ?_
  rw [List.length_append]
  exact Nat.lt_add_of_pos_left (List.length_pos_iff.mpr hnonempty)

/-- A text that does not start with a blank starts with its first token. -/
theorem exists_token? {c : Char} {cs : List Char} {ts : List Token} (hblank : ¬ isBlank c = true)
    (h : tokens? (c :: cs) = some ts) :
    ∃ t rest ts', token? (c :: cs) = some (t, rest) ∧ rest.length ≤ cs.length ∧ tokens? rest = some ts' ∧
      ts = t :: ts' := by
  rw [tokens?, if_neg hblank] at h
  obtain ⟨⟨t, rest⟩, htoken, h⟩ := Option.bind_eq_some_iff.mp h
  simp only at h
  split at h
  · obtain ⟨ts', hrest, heq⟩ := Option.bind_eq_some_iff.mp h
    cases heq
    exact ⟨t, rest, ts', htoken, ‹_›, hrest, rfl⟩
  · cases h

/-- Blanks yield nothing. -/
theorem tokens?_append_of_nil {cs : List Char} (h : tokens? cs = some []) (rest : List Char) :
    tokens? (cs ++ rest) = tokens? rest := by
  induction cs with
  | nil => rfl
  | cons c cs ih =>
    by_cases hblank : isBlank c = true
    · rw [tokens?, if_pos hblank] at h
      rw [List.cons_append, tokens?, if_pos hblank, ih h]
    · obtain ⟨_, _, _, _, _, _, heq⟩ := exists_token? hblank h
      cases heq

/-- A text that is read as a number is cut off where it ends. -/
theorem yields_of_tokens? {cs : List Char} {x : Float} (h : tokens? cs = some [.scalar (.float x)]) :
    Yields cs [.scalar (.float x)] := by
  intro rest hrest
  induction cs with
  | nil => simp [tokens?] at h
  | cons c cs ih =>
    by_cases hblank : isBlank c = true
    · rw [tokens?, if_pos hblank] at h
      rw [List.cons_append, tokens?, if_pos hblank, ih h]
    · obtain ⟨t, more, ts, htoken, hless, hmore, heq⟩ := exists_token? hblank h
      cases heq
      have hnumber := (isNumber_of_token? htoken).append hrest
      rw [tokens?_of_token? hnumber.token?_eq (by simp; omega), tokens?_append_of_nil hmore]
      rfl

theorem tokens?_of_ofText? {s : String} {x : Float} (h : ofText? s = some (.float x)) :
    tokens? s.toList = some [.scalar (.float x)] := by
  obtain ⟨ts, htokens, hread⟩ := Option.bind_eq_some_iff.mp h
  rw [htokens, ofTokens?_eq_scalar hread]

theorem Scalar.yields_render {s : Scalar} (h : s.Legible) : Yields s.render.toList [.scalar s] := by
  cases s with
  | null => exact yields_of_token? fun _ _ => rfl
  | bool b => cases b <;> exact yields_of_token? fun _ _ => rfl
  | integer n => exact yields_of_token? fun rest hrest => ((isNumber_integer h.1 h.2).append hrest).token?_eq
  | float x =>
    obtain ⟨hfinite, hread⟩ := h
    rw [render, if_pos hfinite]
    exact yields_of_tokens? (tokens?_of_ofText? hread)
  | string s =>
    obtain ⟨s, rfl⟩ := Option.isSome_iff_exists.mp h
    exact yields_of_token? fun rest _ => token?_quoted s rest

theorem tokens?_quoted (name : String) (rest : List Char) :
    tokens? ((quoted name).toList ++ ':' :: rest) =
      (tokens? (':' :: rest)).map (.scalar (.string (some name)) :: ·) := by
  have hnonempty : 0 < (quoted name).toList.length := by simp [quoted]
  exact tokens?_of_token? (token?_quoted name _) (by simp only [List.length_append]; omega)

theorem Value.yields_render {v : Value} (h : v.Legible) : Yields v.render.toList v.tokens := by
  induction h with
  | scalar h => exact Scalar.yields_render h
  | @array items _ ih =>
    have htext : (Value.array items).render.toList =
        '[' :: ([','].intercalate (items.map fun v => v.render.toList) ++ [']']) := by
      simp [render_array, String.toList_intercalate, List.map_map, Function.comp_def]
    rw [htext]
    simpa using yields_array (g := id) ih
  | @object members names _ ih =>
    have htext : (Value.object members).render.toList =
        '\x7b' :: ([','].intercalate (members.map fun m => (quoted (m.1.getD "")).toList ++ ':' :: m.2.render.toList) ++
          ['\x7d']) := by
      simp [render_object, String.toList_intercalate, List.map_map, Function.comp_def]
    have hmembers : ∀ m ∈ members, Yields ((quoted (m.1.getD "")).toList ++ ':' :: m.2.render.toList)
        (memberTokens (id m)) := by
      rintro ⟨name, v⟩ hm
      obtain ⟨name, rfl⟩ := Option.isSome_iff_exists.mp (names _ hm)
      exact yields_member (tokens?_quoted name) (ih _ hm)
    rw [htext]
    simpa using yields_object hmembers

/-- **What is written as text is read from it.** -/
theorem ofText?_render {v : Value} (h : v.Legible) : ofText? v.render = some v :=
  ofText?_of_yields (Value.yields_render h)

theorem legible_iff {x : Float} :
    Legible x ↔ x.isFinite = true ∧ tokens? (Number.literal.text x).toList = some [.scalar (.float x)] := by
  refine and_congr_right fun _ => ⟨tokens?_of_ofText?, fun h => ?_⟩
  rw [ofText?, h]
  rfl

instance : DecidablePred Legible := fun _ => decidable_of_iff _ legible_iff.symm

end Drafting.Json
