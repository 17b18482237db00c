import Drafting.Json.Token
import Drafting.Proofs.Identifier.Text
import Mathlib.Data.List.TakeWhile

/-! The tokens of what is written.

A written text is a quote, one piece for every character, and a quote: whatever the
character, its escape is read as one piece, and the pieces make up the text again
(`token?_quoted`). A number has no end mark of its own. It is read up to the first
character that cannot go on with it, and no comma, closing bracket or blank can
(`Closing`): none is a digit, a point, a sign or an exponent mark, so every part of the
grammar stops in front of one (`unsigned?_append`). An integer of 64 bits is written
in digits without a leading zero and reads as an integer (`isNumber_integer`). -/
namespace Drafting.Json

/-! ### String literals -/

/-- The characters that are written with a name behind a backslash. -/
def named : List Char := ['"', '\\', '\n', '\r', '\t', '\x08', '\x0c']

/-- The piece that an escaped character is read as. -/
def piece (c : Char) : Piece := if c.toNat < 32 ∧ c ∉ named then .unit c.toNat else .char c

theorem pieces?_plain {c : Char} (hquote : c ≠ '"') (hslash : c ≠ '\\') (hcontrol : ¬ c.toNat < 32) (rest : List Char) :
    pieces? (c :: rest) = (pieces? rest).map fun p => (.char c :: p.1, p.2) := by
  have hplain : ¬ (c.toNat < 32 ∨ c = '\\') := not_or.mpr ⟨hcontrol, hslash⟩
  rw [pieces?]
  · simp only [if_neg hplain]
    cases pieces? rest <;> rfl
  all_goals simp_all

theorem pieces?_escape {p q r s : Char} {n : Nat} (h : Number.ofHexDigits? [p, q, r, s] = some n) (rest : List Char) :
    pieces? ('\\' :: 'u' :: p :: q :: r :: s :: rest) = (pieces? rest).map fun p => (.unit n :: p.1, p.2) := by
  show (Number.ofHexDigits? [p, q, r, s]).bind _ = _
  rw [h]
  cases pieces? rest <;> rfl

theorem pieces?_unit {n : Nat} (h : n < 16 ^ 4) (rest : List Char) :
    pieces? ('\\' :: 'u' :: (Number.hexDigits 4 n ++ rest)) = (pieces? rest).map fun p => (.unit n :: p.1, p.2) := by
  obtain ⟨p, q, r, s, hdigits⟩ : ∃ p q r s, Number.hexDigits 4 n = [p, q, r, s] := ⟨_, _, _, _, rfl⟩
  have hread := Number.ofHexDigits?_hexDigits 4 n
  rw [hdigits, Nat.mod_eq_of_lt h] at hread
  rw [hdigits]
  exact pieces?_escape hread rest

/-- The names behind a backslash, each with the character that it names. -/
def escapes : List (Char × Char) :=
  [('"', '"'), ('\\', '\\'), ('/', '/'), ('n', '\n'), ('r', '\r'), ('t', '\t'), ('b', '\x08'), ('f', '\x0c')]

theorem pieces?_named {c d : Char} (rest : List Char) (h : (c, d) ∈ escapes) :
    pieces? ('\\' :: c :: rest) = (pieces? rest).map fun p => (.char d :: p.1, p.2) := by
  simp only [escapes, List.mem_cons, Prod.mk.injEq, List.not_mem_nil, or_false] at h
  rcases h with ⟨rfl, rfl⟩ | ⟨rfl, rfl⟩ | ⟨rfl, rfl⟩ | ⟨rfl, rfl⟩ | ⟨rfl, rfl⟩ | ⟨rfl, rfl⟩ | ⟨rfl, rfl⟩ | ⟨rfl, rfl⟩
  all_goals cases hrest : pieces? rest <;> simp [pieces?, hrest]

theorem eq_ofNat_of_toNat {c : Char} {n : Nat} (h : c.toNat = n) : c = Char.ofNat n := by
  rw [← h, Char.ofNat_toNat]

/-- An escaped character is read as one piece. -/
theorem pieces?_escaped (c : Char) (rest : List Char) :
    pieces? ((escaped c).toList ++ rest) = (pieces? rest).map fun p => (piece c :: p.1, p.2) := by
  by_cases hnamed : c ∈ named
  · have hpiece : piece c = .char c := if_neg fun h => h.2 hnamed
    rw [hpiece]
    simp only [named, List.mem_cons, List.not_mem_nil, or_false] at hnamed
    rcases hnamed with rfl | rfl | rfl | rfl | rfl | rfl | rfl
    all_goals exact pieces?_named rest (by decide)
  · have hback : c.toNat ≠ 8 := fun h => hnamed (eq_ofNat_of_toNat h ▸ by decide)
    have hfeed : c.toNat ≠ 12 := fun h => hnamed (eq_ofNat_of_toNat h ▸ by decide)
    have hothers := hnamed
    simp only [named, List.mem_cons, List.not_mem_nil, or_false, not_or] at hothers
    obtain ⟨hquote, hslash, hline, hreturn, htab, _, _⟩ := hothers
    by_cases hcontrol : c.toNat < 32
    · have hpiece : piece c = .unit c.toNat := if_pos ⟨hcontrol, hnamed⟩
      have hescaped : (escaped c).toList = '\\' :: 'u' :: Number.hexDigits 4 c.toNat := by
        simp [escaped, hquote, hslash, hline, hreturn, htab, hback, hfeed, hcontrol]
      rw [hpiece, hescaped]
      exact pieces?_unit (by omega) rest
    · have hpiece : piece c = .char c := if_neg fun h => hcontrol h.1
      have hescaped : (escaped c).toList = [c] := by
        simp [escaped, hquote, hslash, hline, hreturn, htab, hback, hfeed, hcontrol]
      rw [hpiece, hescaped]
      exact pieces?_plain hquote hslash hcontrol rest

/-- A written text is read up to its closing quote. -/
theorem pieces?_quoted (cs rest : List Char) :
    pieces? ((cs.map escaped).flatMap String.toList ++ '"' :: rest) = some (cs.map piece, rest) := by
  induction cs with
  | nil => rfl
  | cons c cs ih =>
    rw [List.map_cons, List.flatMap_cons, List.append_assoc, pieces?_escaped, ih]
    rfl

/-- A unit that is no half of a surrogate pair stands for itself. -/
theorem Piece.text?_unit {n : Nat} (h : n < 0xd800 ∨ 0xe000 ≤ n) (ps : List Piece) :
    text? (.unit n :: ps) = (text? ps).map (Char.ofNat n :: ·) := by
  have hlow : ¬ (0xd800 ≤ n ∧ n < 0xdc00) := by omega
  have hhigh : ¬ (0xdc00 ≤ n ∧ n < 0xe000) := by omega
  have hnone : ¬ (0xd800 ≤ n ∧ n < 0xe000) := by omega
  rcases ps with _ | ⟨_ | m, ps⟩
  · simp [text?, hnone]
  · simp [text?, hnone]
  · rw [text?, if_neg hlow, if_neg hhigh]

/-- The pieces of a written text are this text. -/
theorem Piece.text?_pieces (cs : List Char) : text? (cs.map piece) = some cs := by
  induction cs with
  | nil => rfl
  | cons c cs ih =>
    rw [List.map_cons, piece]
    split
    · rename_i hcontrol
      rw [text?_unit (by omega), ih, Char.ofNat_toNat]
      rfl
    · rw [text?, ih]
      rfl

theorem token?_quoted (s : String) (rest : List Char) :
    token? ((quoted s).toList ++ rest) = some (.scalar (.string (some s)), rest) := by
  have hquoted : (quoted s).toList ++ rest = '"' :: ((s.toList.map escaped).flatMap String.toList ++ '"' :: rest) := by
    simp [quoted, String.toList_join]
  rw [hquoted, token?, pieces?_quoted]
  simp [Piece.text?_pieces]

/-! ### Numbers -/

/-- What stands behind a value in a text: nothing, a comma or the end of an array or object, or a blank. -/
def Closing (rest : List Char) : Prop := ∀ c ∈ rest.head?, c ∈ [',', ']', '\x7d', ' ', '\n', '\r', '\t']

theorem Closing.eq_nil_or {rest : List Char} (h : Closing rest) :
    rest = [] ∨ ∃ rest', rest = ',' :: rest' ∨ rest = ']' :: rest' ∨ rest = '\x7d' :: rest' ∨ rest = ' ' :: rest' ∨
      rest = '\n' :: rest' ∨ rest = '\r' :: rest' ∨ rest = '\t' :: rest' := by
  cases rest with
  | nil => exact .inl rfl
  | cons c rest =>
    have hmem := h c rfl
    simp only [List.mem_cons, List.not_mem_nil, or_false] at hmem
    exact .inr ⟨rest, by simpa only [List.cons.injEq, and_true] using hmem⟩

/-- No digit follows. -/
def Undigited (rest : List Char) : Prop := ∀ c ∈ rest.head?, c.isDigit = false

theorem digits_of_isDigit {ds rest : List Char} (h : ∀ c ∈ ds, c.isDigit = true) (hrest : Undigited rest) :
    digits (ds ++ rest) = (ds, rest) := by
  rw [digits, List.takeWhile_append_of_pos h, List.dropWhile_append_of_pos h]
  cases rest with
  | nil => simp
  | cons c rest => simp [hrest c rfl]

theorem digits_eq_self {ds : List Char} (h : ∀ c ∈ ds, c.isDigit = true) : digits ds = (ds, []) := by
  have hdigits : digits (ds ++ []) = (ds, []) := digits_of_isDigit h nofun
  rwa [List.append_nil] at hdigits

/-- The digits at the start of a text end where it ends. -/
theorem digits_append {rest : List Char} (h : Closing rest) (cs : List Char) :
    digits (cs ++ rest) = ((digits cs).1, (digits cs).2 ++ rest) := by
  induction cs with
  | nil => rcases h.eq_nil_or with rfl | ⟨_, rfl | rfl | rfl | rfl | rfl | rfl | rfl⟩ <;> rfl
  | cons c cs ih =>
    simp only [digits, Prod.mk.injEq] at ih
    by_cases hc : c.isDigit = true
    · simp [digits, hc, ih.1, ih.2]
    · simp [digits, hc]

theorem fraction?_append {rest : List Char} (h : Closing rest) (cs : List Char) :
    fraction? (cs ++ rest) = (fraction? cs).map fun p => (p.1, p.2 ++ rest) := by
  cases cs with
  | nil => rcases h.eq_nil_or with rfl | ⟨_, rfl | rfl | rfl | rfl | rfl | rfl | rfl⟩ <;> rfl
  | cons c cs =>
    by_cases hpoint : c = '.'
    · subst hpoint
      simp only [List.cons_append, fraction?, digits_append h]
      split <;> rfl
    · rw [List.cons_append, fraction?, fraction?]
      · rfl
      all_goals simpa using hpoint

/-- The sign at the start of an exponent, and what follows it. -/
def exponentSign : List Char → Bool × List Char
  | '-' :: rest => (true, rest)
  | '+' :: rest => (false, rest)
  | rest => (false, rest)

theorem exponentSign_append {rest : List Char} (h : Closing rest) (cs : List Char) :
    exponentSign (cs ++ rest) = ((exponentSign cs).1, (exponentSign cs).2 ++ rest) := by
  cases cs with
  | nil => rcases h.eq_nil_or with rfl | ⟨_, rfl | rfl | rfl | rfl | rfl | rfl | rfl⟩ <;> rfl
  | cons c cs =>
    by_cases hminus : c = '-'
    · subst hminus
      rfl
    · by_cases hplus : c = '+'
      · subst hplus
        rfl
      · rw [List.cons_append, exponentSign, exponentSign]
        · rfl
        all_goals simp_all

theorem exponent?_eq {e : Char} (cs : List Char) :
    exponent? (e :: cs) = if e = 'e' ∨ e = 'E' then
        if (digits (exponentSign cs).2).1.isEmpty then none
        else some (some ((exponentSign cs).1, (digits (exponentSign cs).2).1), (digits (exponentSign cs).2).2)
      else some (none, e :: cs) := rfl

theorem exponent?_append {rest : List Char} (h : Closing rest) (cs : List Char) :
    exponent? (cs ++ rest) = (exponent? cs).map fun p => (p.1, p.2 ++ rest) := by
  cases cs with
  | nil => rcases h.eq_nil_or with rfl | ⟨_, rfl | rfl | rfl | rfl | rfl | rfl | rfl⟩ <;> rfl
  | cons e cs =>
    rw [List.cons_append, exponent?_eq, exponent?_eq, exponentSign_append h, digits_append h]
    split
    · split <;> rfl
    · rfl

/-- The whole part of a number: one zero, or digits that do not start with zero. -/
def whole? : List Char → Option (List Char × List Char)
  | '0' :: rest => some (['0'], rest)
  | cs => if (digits cs).1.isEmpty then none else some (digits cs)

theorem whole?_append {rest : List Char} (h : Closing rest) (cs : List Char) :
    whole? (cs ++ rest) = (whole? cs).map fun p => (p.1, p.2 ++ rest) := by
  cases cs with
  | nil => rcases h.eq_nil_or with rfl | ⟨_, rfl | rfl | rfl | rfl | rfl | rfl | rfl⟩ <;> rfl
  | cons c cs =>
    by_cases hzero : c = '0'
    · subst hzero
      rfl
    · have hdigits := digits_append h (c :: cs)
      rw [List.cons_append] at hdigits ⊢
      rw [whole?, whole?, hdigits]
      · split <;> rfl
      all_goals simpa using hzero

theorem unsigned?_eq (negative : Bool) (cs : List Char) :
    unsigned? negative cs = (whole? cs).bind fun whole => (fraction? whole.2).bind fun fraction =>
      (exponent? fraction.2).bind fun exponent => some (number negative whole.1 fraction.1 exponent.1, exponent.2) := by
  unfold unsigned?
  split
  · rfl
  · rename_i hzero
    rw [whole?]
    · split <;> rfl
    · exact hzero

/-- A number is read up to what stands behind it. -/
theorem unsigned?_append {rest : List Char} (h : Closing rest) (negative : Bool) (cs : List Char) :
    unsigned? negative (cs ++ rest) = (unsigned? negative cs).map fun p => (p.1, p.2 ++ rest) := by
  rw [unsigned?_eq, unsigned?_eq, whole?_append h]
  cases whole? cs with
  | none => rfl
  | some whole =>
    simp only [Option.map_some, Option.bind_some, fraction?_append h]
    cases fraction? whole.2 with
    | none => rfl
    | some fraction =>
      simp only [Option.map_some, Option.bind_some, exponent?_append h]
      cases exponent? fraction.2 <;> rfl

/-! ### Tokens of numbers -/

theorem token?_blank {c : Char} (h : isBlank c = true) (cs : List Char) : token? (c :: cs) = none := by
  have hcases : c = ' ' ∨ c = '\n' ∨ c = '\r' ∨ c = '\t' := by simpa [isBlank, or_assoc] using h
  rcases hcases with rfl | rfl | rfl | rfl <;> rfl

theorem token?_digit {c : Char} (h : c.isDigit = true) (cs : List Char) :
    token? (c :: cs) = (unsigned? false (c :: cs)).map fun p => (.scalar p.1, p.2) := by
  rw [token?]
  all_goals
    intros
    simp_all

/-- A number starts with a digit. -/
theorem isDigit_of_unsigned? {negative : Bool} {cs : List Char} {p : Scalar × List Char}
    (h : unsigned? negative cs = some p) : ∃ c cs', cs = c :: cs' ∧ c.isDigit = true := by
  rw [unsigned?_eq, Option.bind_eq_some_iff] at h
  obtain ⟨whole, hwhole, _⟩ := h
  cases cs with
  | nil => cases hwhole
  | cons c cs =>
    refine ⟨c, cs, rfl, ?_⟩
    by_cases hzero : c = '0'
    · subst hzero
      rfl
    · by_contra hc
      rw [whole?] at hwhole
      · simp [digits, hc] at hwhole
      · simpa using hzero

/-- A number with its sign, and what follows it. -/
def IsNumber (cs : List Char) (s : Scalar) (rest : List Char) : Prop :=
  unsigned? false cs = some (s, rest) ∨ ∃ cs', cs = '-' :: cs' ∧ unsigned? true cs' = some (s, rest)

theorem IsNumber.token?_eq {cs rest : List Char} {s : Scalar} (h : IsNumber cs s rest) :
    token? cs = some (.scalar s, rest) := by
  rcases h with h | ⟨cs, rfl, h⟩
  · obtain ⟨c, cs, rfl, hc⟩ := isDigit_of_unsigned? h
    rw [token?_digit hc, h]
    rfl
  · rw [token?, h]
    rfl

theorem IsNumber.append {cs rest more : List Char} {s : Scalar} (h : IsNumber cs s rest) (hmore : Closing more) :
    IsNumber (cs ++ more) s (rest ++ more) := by
  rcases h with h | ⟨cs, rfl, h⟩
  · left
    rw [unsigned?_append hmore, h]
    rfl
  · right
    refine ⟨cs ++ more, rfl, ?_⟩
    rw [unsigned?_append hmore, h]
    rfl

/-- Only a number is read as one. -/
theorem isNumber_of_token? {cs rest : List Char} {x : Float} (h : token? cs = some (.scalar (.float x), rest)) :
    IsNumber cs (.float x) rest := by
  unfold token? at h
  split at h
  all_goals try cases h
  · obtain ⟨_, _, hp⟩ := Option.map_eq_some_iff.mp h
    cases hp
  · obtain ⟨⟨_, _⟩, hnumber, hp⟩ := Option.map_eq_some_iff.mp h
    cases hp
    exact .inr ⟨_, rfl, hnumber⟩
  · obtain ⟨⟨_, _⟩, hnumber, hp⟩ := Option.map_eq_some_iff.mp h
    cases hp
    exact .inl hnumber

/-! ### Integers -/

/-- The digits of a positive number do not start with zero. -/
theorem head?_toDigits {n : Nat} (h : 0 < n) : (Nat.toDigits 10 n).head? ≠ some '0' := by
  induction n using Nat.strongRecOn with
  | ind n ih =>
    by_cases hsmall : n < 10
    · have hdigit : ∀ n < 10, 0 < n → [Nat.digitChar n].head? ≠ some '0' := by decide
      rw [Nat.toDigits_of_lt_base hsmall]
      exact hdigit n hsmall h
    · have hpos : 0 < n / 10 := by omega
      have hsmaller : n / 10 < n := by omega
      have hfirst := ih _ hsmaller hpos
      obtain ⟨c, cs, hdigits⟩ := List.exists_cons_of_ne_nil (Nat.toDigits_ne_nil (b := 10) (n := n / 10))
      rw [hdigits] at hfirst
      rw [Nat.toDigits_of_base_le (by decide) (by omega), hdigits]
      exact hfirst

theorem digits_toDigits (n : Nat) : digits (Nat.toDigits 10 n) = (Nat.toDigits 10 n, []) :=
  digits_eq_self fun _ hc => Nat.isDigit_of_mem_toDigits (by decide) (by decide) hc

theorem unsigned?_toDigits (negative : Bool) (n : Nat) :
    unsigned? negative (Nat.toDigits 10 n) = some (number negative (Nat.toDigits 10 n) [] none, []) := by
  have hwhole : whole? (Nat.toDigits 10 n) = some (Nat.toDigits 10 n, []) := by
    rcases Nat.eq_zero_or_pos n with rfl | hpos
    · rfl
    · rw [whole?]
      · rw [digits_toDigits, if_neg (by simp [Nat.toDigits_ne_nil])]
      · intro rest heq
        exact head?_toDigits hpos (by rw [heq]; rfl)
  rw [unsigned?_eq, hwhole]
  rfl

theorem digitsValue_toDigits (n : Nat) : digitsValue (Nat.toDigits 10 n) = n :=
  Nat.ofDigitChars_toDigits (by decide) (by decide)

/-- An integer of 64 bits is written as a number that is read as it. -/
theorem isNumber_integer {n : Int} (hlow : -2 ^ 63 ≤ n) (hhigh : n < 2 ^ 64) :
    IsNumber (toString n).toList (.integer n) [] := by
  cases n with
  | ofNat m =>
    left
    have htext : (toString (Int.ofNat m)).toList = Nat.toDigits 10 m := by
      have hplain : toString (Int.ofNat m) = toString m := rfl
      rw [hplain]
      simp
    have hsmall : m < UInt64.size := by
      have hhigh : (m : Int) < 2 ^ 64 := hhigh
      simp only [UInt64.size]
      omega
    rw [htext, unsigned?_toDigits, number, digitsValue_toDigits, if_pos hsmall]
    rfl
  | negSucc m =>
    right
    have htext : (toString (Int.negSucc m)).toList = '-' :: Nat.toDigits 10 (m + 1) := by
      have hminus : toString (Int.negSucc m) = "-" ++ toString (m + 1) := rfl
      rw [hminus]
      simp
    have hsmall : 0 < m + 1 ∧ m + 1 ≤ UInt64.size / 2 := by
      simp only [UInt64.size]
      omega
    refine ⟨_, htext, ?_⟩
    rw [unsigned?_toDigits, number, digitsValue_toDigits, if_pos hsmall]
    rfl

end Drafting.Json
