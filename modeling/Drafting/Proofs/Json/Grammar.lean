import Drafting.Proofs.Json.Numeral
import Drafting.Proofs.Json.Text

/-! What a JSON text spells.

The grammar is a relation between texts and values (`Spells`): one constructor for every
form that a value can be written in, with blanks in front of and behind it wherever it stands. A string
literal is a row of pieces (`SpellsPiece`), characters and the UTF-16 units that escapes
name, and these denote a text or, with half of a surrogate pair on its own, none
(`Denotes`). How a text is cut into tokens and how these are put together does not
occur in it. The text of every value yields the tokens of this value (`Spells.yields`), so a text
that spells a value is read as this value (`Spells.ofText?_eq`). -/
namespace Drafting.Json

/-! ### String literals -/

/-- A hexadecimal digit and its number. -/
def IsHexDigit (c : Char) (n : ℕ) : Prop := n < 16 ∧ (c = n.digitChar ∨ c = n.digitChar.toUpper)

/-- A character that stands for itself in a string literal. -/
def IsPlain (c : Char) : Prop := 32 ≤ c.toNat ∧ c ≠ '"' ∧ c ≠ '\\'

instance : DecidablePred IsPlain := fun _ => inferInstanceAs (Decidable (_ ∧ _))

/-- One character of a string literal: itself, its name behind a backslash, or a unit by its number. -/
inductive SpellsPiece : List Char → Piece → Prop where
  | plain {c : Char} (h : IsPlain c) : SpellsPiece [c] (.char c)
  | named {c d : Char} (h : (c, d) ∈ escapes) : SpellsPiece ['\\', c] (.char d)
  | unit {a b c d : Char} {i j k l : ℕ} (ha : IsHexDigit a i) (hb : IsHexDigit b j) (hc : IsHexDigit c k)
      (hd : IsHexDigit d l) : SpellsPiece ['\\', 'u', a, b, c, d] (.unit (16 * (16 * (16 * i + j) + k) + l))

/-- Pieces one behind the other. -/
inductive SpellsPieces : List Char → List Piece → Prop where
  | nil : SpellsPieces [] []
  | cons {cs rest : List Char} {p : Piece} {ps : List Piece} (first : SpellsPiece cs p) (more : SpellsPieces rest ps) :
      SpellsPieces (cs ++ rest) (p :: ps)

/-- The text that pieces denote. A unit denotes the character of its number, and a surrogate pair one
beyond all units. -/
inductive Denotes : List Piece → List Char → Prop where
  | nil : Denotes [] []
  | char {c : Char} {ps : List Piece} {cs : List Char} (more : Denotes ps cs) : Denotes (.char c :: ps) (c :: cs)
  | unit {c : Char} {n : ℕ} {ps : List Piece} {cs : List Char} (h : c.toNat = n) (more : Denotes ps cs) :
      Denotes (.unit n :: ps) (c :: cs)
  | pair {c : Char} {high low : ℕ} {ps : List Piece} {cs : List Char} (hhigh : high < 0x400) (hlow : low < 0x400)
      (h : c.toNat = 0x10000 + high * 0x400 + low) (more : Denotes ps cs) :
      Denotes (.unit (0xd800 + high) :: .unit (0xdc00 + low) :: ps) (c :: cs)

/-- A string literal, and what it denotes. -/
inductive SpellsLiteral : List Char → Literal → Prop where
  | text {cs : List Char} {ps : List Piece} {s : String} (pieces : SpellsPieces cs ps) (h : Denotes ps s.toList) :
      SpellsLiteral ('"' :: (cs ++ ['"'])) (some s)
  | lone {cs : List Char} {ps : List Piece} (pieces : SpellsPieces cs ps) (h : ∀ cs', ¬ Denotes ps cs') :
      SpellsLiteral ('"' :: (cs ++ ['"'])) none

/-! ### Values -/

/-- Nothing but blanks. -/
def Blanks (cs : List Char) : Prop := ∀ c ∈ cs, c ∈ [' ', '\n', '\r', '\t']

/-- A name, with blanks around it. -/
inductive SpellsName : List Char → Literal → Prop where
  | padded {before cs after : List Char} {literal : Literal} (hbefore : Blanks before)
      (h : SpellsLiteral cs literal) (hafter : Blanks after) : SpellsName (before ++ (cs ++ after)) literal

/-- A member of an object, with its texts. -/
structure SpelledMember where
  nameText : List Char
  name : Literal
  valueText : List Char
  value : Value

namespace SpelledMember

/-- The text of a member. -/
def chars (m : SpelledMember) : List Char := m.nameText ++ ':' :: m.valueText

/-- The member without its texts. -/
def member (m : SpelledMember) : Literal × Value := (m.name, m.value)

end SpelledMember

/-- The text of a value. -/
inductive Spells : List Char → Value → Prop where
  | null : Spells ['n', 'u', 'l', 'l'] .null
  | true : Spells ['t', 'r', 'u', 'e'] (.bool true)
  | false : Spells ['f', 'a', 'l', 's', 'e'] (.bool false)
  | number (m : Numeral) : Spells m.chars (.scalar m.scalar)
  | string {cs : List Char} {literal : Literal} (h : SpellsLiteral cs literal) :
      Spells cs (.scalar (.string literal))
  | emptyArray {cs : List Char} (h : Blanks cs) : Spells ('[' :: (cs ++ [']'])) (.array [])
  | array {items : List (List Char × Value)} (h : ∀ item ∈ items, Spells item.1 item.2) :
      Spells ('[' :: ([','].intercalate (items.map (·.1)) ++ [']'])) (.array (items.map (·.2)))
  | emptyObject {cs : List Char} (h : Blanks cs) : Spells ('\x7b' :: (cs ++ ['\x7d'])) (.object [])
  | object {members : List SpelledMember} (names : ∀ m ∈ members, SpellsName m.nameText m.name)
      (values : ∀ m ∈ members, Spells m.valueText m.value) :
      Spells ('\x7b' :: ([','].intercalate (members.map SpelledMember.chars) ++ ['\x7d']))
        (.object (members.map SpelledMember.member))
  | padded {before cs after : List Char} {v : Value} (hbefore : Blanks before) (h : Spells cs v)
      (hafter : Blanks after) : Spells (before ++ (cs ++ after)) v

/-! ### Reading string literals -/

theorem hexValue?_of_isHexDigit {c : Char} {n : ℕ} (h : IsHexDigit c n) : Number.hexValue? c = some n := by
  have hdigits : ∀ n < 16, Number.hexValue? n.digitChar = some n ∧ Number.hexValue? n.digitChar.toUpper = some n := by
    decide
  obtain ⟨hsmall, rfl | rfl⟩ := h
  · exact (hdigits n hsmall).1
  · exact (hdigits n hsmall).2

theorem SpellsPiece.pieces?_eq {cs : List Char} {p : Piece} (h : SpellsPiece cs p) (rest : List Char) :
    pieces? (cs ++ rest) = (pieces? rest).map fun q => (p :: q.1, q.2) := by
  cases h with
  | plain h =>
    obtain ⟨hcontrol, hquote, hslash⟩ := h
    exact pieces?_plain hquote hslash (by omega) rest
  | named h => exact pieces?_named rest h
  | unit ha hb hc hd =>
    refine pieces?_escape ?_ rest
    simp [Number.ofHexDigits?, hexValue?_of_isHexDigit ha, hexValue?_of_isHexDigit hb, hexValue?_of_isHexDigit hc,
      hexValue?_of_isHexDigit hd]

/-- Pieces are read up to the closing quote. -/
theorem SpellsPieces.pieces?_eq {cs : List Char} {ps : List Piece} (h : SpellsPieces cs ps) (rest : List Char) :
    pieces? (cs ++ '"' :: rest) = some (ps, rest) := by
  induction h with
  | nil => rfl
  | cons first _ ih =>
    rw [List.append_assoc, first.pieces?_eq, ih]
    rfl

/-- An escape names a unit of 16 bits. -/
theorem SpellsPieces.unit_lt {cs : List Char} {ps : List Piece} (h : SpellsPieces cs ps) {n : ℕ}
    (hn : .unit n ∈ ps) : n < 0x10000 := by
  induction h with
  | nil => cases hn
  | cons first _ ih =>
    rcases List.mem_cons.mp hn with rfl | hn
    · cases first with
      | unit ha hb hc hd =>
        have := ha.1
        have := hb.1
        have := hc.1
        have := hd.1
        omega
    · exact ih hn

theorem toNat_lt_or (c : Char) : c.toNat < 0xd800 ∨ 0xe000 ≤ c.toNat := by
  rcases c.valid with h | h
  · exact .inl h
  · exact .inr h.1

theorem text?_pair {n m : ℕ} (hn : 0xd800 ≤ n ∧ n < 0xdc00) (hm : 0xdc00 ≤ m ∧ m < 0xe000) (ps : List Piece) :
    Piece.text? (.unit n :: .unit m :: ps) =
      (Piece.text? ps).map (Char.ofNat (0x10000 + (n - 0xd800) * 0x400 + (m - 0xdc00)) :: ·) := by
  rw [Piece.text?, if_pos hn, if_pos hm]

theorem Denotes.text?_eq {ps : List Piece} {cs : List Char} (h : Denotes ps cs) : Piece.text? ps = some cs := by
  induction h with
  | nil => rfl
  | char _ ih => rw [Piece.text?, ih, Option.map_some]
  | @unit c n _ _ h _ ih =>
    rw [Piece.text?_unit (h ▸ toNat_lt_or c), ih, ← eq_ofNat_of_toNat h, Option.map_some]
  | pair hhigh hlow h _ ih =>
    rw [text?_pair (by omega) (by omega), ih, Nat.add_sub_cancel_left, Nat.add_sub_cancel_left, ← eq_ofNat_of_toNat h,
      Option.map_some]

theorem toNat_ofNat {n : ℕ} (h : n < 0xd800 ∨ 0xe000 ≤ n ∧ n < 0x110000) : (Char.ofNat n).toNat = n := by
  rw [Char.toNat_ofNat, if_pos]
  exact h.imp_right (And.imp_left Nat.lt_of_succ_le)

/-- Pieces that are read as a text denote it. Their units have 16 bits; a number beyond all characters would be read as
some character too. -/
theorem denotes_of_text? {ps : List Piece} {cs : List Char} (h : Piece.text? ps = some cs)
    (hunits : ∀ n, .unit n ∈ ps → n < 0x10000) : Denotes ps cs := by
  fun_induction Piece.text? ps generalizing cs with
  | case1 =>
    cases h
    exact .nil
  | case2 c rest ih =>
    obtain ⟨cs, htext, rfl⟩ := Option.map_eq_some_iff.mp h
    exact .char (ih htext fun n hn => hunits n (.tail _ hn))
  | case3 high low rest hhigh hlow ih =>
    obtain ⟨cs, htext, rfl⟩ := Option.map_eq_some_iff.mp h
    have hmore := ih htext fun n hn => hunits n (.tail _ (.tail _ hn))
    obtain ⟨high, rfl⟩ := Nat.exists_eq_add_of_le hhigh.1
    obtain ⟨low, rfl⟩ := Nat.exists_eq_add_of_le hlow.1
    rw [Nat.add_sub_cancel_left, Nat.add_sub_cancel_left]
    exact .pair (by omega) (by omega) (toNat_ofNat (by omega)) hmore
  | case6 n m rest hhigh hlow ih | case8 n rest _ hplain ih =>
    obtain ⟨cs, htext, rfl⟩ := Option.map_eq_some_iff.mp h
    have hbits := hunits n List.mem_cons_self
    exact .unit (toNat_ofNat (by omega)) (ih htext fun n hn => hunits n (.tail _ hn))
  | case4 | case5 | case7 => cases h

theorem SpellsPieces.token?_eq {cs : List Char} {ps : List Piece} (h : SpellsPieces cs ps) (rest : List Char) :
    token? ('"' :: (cs ++ ['"']) ++ rest) =
      some (.scalar (.string ((Piece.text? ps).map String.ofList)), rest) := by
  rw [List.cons_append, List.append_assoc, List.singleton_append, token?, h.pieces?_eq]
  rfl

/-- A string literal is read up to its closing quote. -/
theorem SpellsLiteral.token?_eq {cs : List Char} {literal : Literal} (h : SpellsLiteral cs literal) (rest : List Char) :
    token? (cs ++ rest) = some (.scalar (.string literal), rest) := by
  cases h with
  | text pieces h => rw [pieces.token?_eq, h.text?_eq, Option.map_some, String.ofList_toList]
  | @lone cs ps pieces h =>
    have hnone : Piece.text? ps = none := by
      by_contra hsome
      obtain ⟨cs', htext⟩ := Option.ne_none_iff_exists'.mp hsome
      exact h cs' (denotes_of_text? htext fun _ hn => pieces.unit_lt hn)
    rw [pieces.token?_eq, hnone, Option.map_none]

theorem SpellsLiteral.length_pos {cs : List Char} {literal : Literal} (h : SpellsLiteral cs literal) :
    0 < cs.length := by
  cases h <;> simp

theorem SpellsLiteral.tokens?_eq {cs : List Char} {literal : Literal} (h : SpellsLiteral cs literal)
    (rest : List Char) : tokens? (cs ++ rest) = (tokens? rest).map (.scalar (.string literal) :: ·) := by
  refine tokens?_of_token? (h.token?_eq rest) ?_
  rw [List.length_append]
  exact Nat.lt_add_of_pos_left h.length_pos

/-! ### Reading values -/

theorem tokens?_blanks {cs : List Char} (h : Blanks cs) (rest : List Char) : tokens? (cs ++ rest) = tokens? rest := by
  induction cs with
  | nil => rfl
  | cons c cs ih =>
    obtain ⟨hc, hcs⟩ := List.forall_mem_cons.mp h
    have hblank : isBlank c = true := by simpa [isBlank, or_assoc] using hc
    rw [List.cons_append, tokens?, if_pos hblank, ih hcs]

theorem Blanks.closing {cs rest : List Char} (h : Blanks cs) (hrest : Closing rest) : Closing (cs ++ rest) := by
  cases cs with
  | nil => exact hrest
  | cons c cs =>
    rintro d ⟨⟩
    exact List.mem_append_right [',', ']', '\x7d'] (h c List.mem_cons_self)

theorem Yields.padded {before cs after : List Char} {ts : List Token} (hbefore : Blanks before) (h : Yields cs ts)
    (hafter : Blanks after) : Yields (before ++ (cs ++ after)) ts := by
  intro rest hrest
  rw [List.append_assoc, List.append_assoc, tokens?_blanks hbefore, h _ (hafter.closing hrest), tokens?_blanks hafter]

theorem SpellsName.tokens?_eq {cs : List Char} {name : Literal} (h : SpellsName cs name) (rest : List Char) :
    tokens? (cs ++ ':' :: rest) = (tokens? (':' :: rest)).map (.scalar (.string name) :: ·) := by
  obtain ⟨hbefore, h, hafter⟩ := h
  rw [List.append_assoc, List.append_assoc, tokens?_blanks hbefore, h.tokens?_eq, tokens?_blanks hafter]

theorem yields_empty {opening closing : Char} {first last : Token} {cs : List Char}
    (hfirst : ∀ rest, token? (opening :: rest) = some (first, rest))
    (hlast : ∀ rest, token? (closing :: rest) = some (last, rest)) (h : Blanks cs) :
    Yields (opening :: (cs ++ [closing])) [first, last] := by
  intro rest _
  rw [List.cons_append, List.append_assoc, List.singleton_append, tokens?_of_token? (hfirst _) (Nat.lt_succ_self _),
    tokens?_blanks h, tokens?_of_token? (hlast _) (Nat.lt_succ_self _), Option.map_map]
  rfl

/-- The text of a value yields its tokens. -/
theorem Spells.yields {cs : List Char} {v : Value} (h : Spells cs v) : Yields cs v.tokens := by
  induction h with
  | null | true | false => exact yields_of_token? fun _ _ => rfl
  | number m => exact yields_of_token? fun rest hrest => (m.isNumber_chars.append hrest).token?_eq
  | string h => exact yields_of_token? fun rest _ => h.token?_eq rest
  | emptyArray h => exact yields_empty (fun _ => rfl) (fun _ => rfl) h
  | array _ ih => exact yields_array ih
  | emptyObject h => exact yields_empty (fun _ => rfl) (fun _ => rfl) h
  | object names _ ih => exact yields_object fun m hm => yields_member (names m hm).tokens?_eq (ih m hm)
  | padded hbefore _ hafter ih => exact ih.padded hbefore hafter

/-- **A text is read as the value that it spells.** -/
theorem Spells.ofText?_eq {text : String} {v : Value} (h : Spells text.toList v) : ofText? text = some v :=
  ofText?_of_yields h.yields

/-! ### Plain names -/

theorem SpellsLiteral.plain {s : String} (h : ∀ c ∈ s.toList, IsPlain c) :
    SpellsLiteral ('"' :: (s.toList ++ ['"'])) (some s) := by
  refine @SpellsLiteral.text _ (s.toList.map .char) _ ?_ ?_
  · revert h
    induction s.toList with
    | nil => exact fun _ => .nil
    | cons c cs ih =>
      intro h
      obtain ⟨hc, hcs⟩ := List.forall_mem_cons.mp h
      exact .cons (.plain hc) (ih hcs)
  · induction s.toList with
    | nil => exact .nil
    | cons c cs ih => exact .char ih

/-- An object with plain names, and a blank behind every colon. -/
theorem Spells.plain {members : List (String × List Char × Value)}
    (names : ∀ m ∈ members, ∀ c ∈ m.1.toList, IsPlain c) (values : ∀ m ∈ members, Spells m.2.1 m.2.2) :
    Spells ('\x7b' :: ([','].intercalate (members.map fun m => '"' :: (m.1.toList ++ '"' :: ':' :: ' ' :: m.2.1)) ++
        ['\x7d']))
      (.ofMembers (members.map fun m => (m.1, m.2.2))) := by
  have hobject := @Spells.object
    (members.map fun m => ⟨'"' :: (m.1.toList ++ ['"']), some m.1, ' ' :: m.2.1, m.2.2⟩) ?_ ?_
  · simpa [SpelledMember.chars, SpelledMember.member, Value.ofMembers, Function.comp_def] using hobject
  · intro member hmember
    obtain ⟨m, hm, rfl⟩ := List.mem_map.mp hmember
    simpa using @SpellsName.padded [] _ [] _ nofun (.plain (names m hm)) nofun
  · intro member hmember
    obtain ⟨m, hm, rfl⟩ := List.mem_map.mp hmember
    have hblank : Blanks [' '] := by simp [Blanks]
    simpa using @Spells.padded _ _ [] _ hblank (values m hm) nofun

end Drafting.Json
