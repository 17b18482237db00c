import Drafting.Identifier.Sha1
import Drafting.Number.Hexadecimal

/-! Universally unique identifiers.

An identifier is 128 bits. It is made from a name inside a name space (version 5,
by a digest) or from random bits (version 4). Its text has 32 hexadecimal digits in five groups;
reading also takes the ungrouped digits, the grouped form in braces and the
grouped form behind `urn:uuid:`, and letters of either case throughout. -/
namespace Drafting

/-- A universally unique identifier. -/
structure Uuid where
  bits : BitVec 128
  deriving DecidableEq, Repr

namespace Uuid

/-- The identifier whose bits are all zero. -/
def null : Uuid := ⟨0⟩

instance : Inhabited Uuid := ⟨null⟩

/-- The name space of object identifiers. -/
def objects : Uuid := ⟨0x6ba7b8129dad11d180b400c04fd430c8⟩

/-- `x` with its version and variant fields filled in. -/
def stamped (version : BitVec 4) (x : BitVec 128) : Uuid :=
  ⟨x.extractLsb' 80 48 ++ version ++ x.extractLsb' 64 12 ++ 2#2 ++ x.extractLsb' 0 62⟩

/-- The version field. -/
def version (u : Uuid) : Nat := (u.bits.extractLsb' 76 4).toNat

/-- The sixteen bytes, the highest first. -/
def bytes (u : Uuid) : List UInt8 := Sha1.bigEndian 16 u.bits.toNat

/-- The identifier of a name in a name space. -/
def named (space : Uuid) (name : List UInt8) : Uuid :=
  let d := Sha1.digest (space.bytes ++ name)
  stamped 5 (d.a.toBitVec ++ d.b.toBitVec ++ d.c.toBitVec ++ d.d.toBitVec)

/-- The identifier made of random bits. -/
def random (x : BitVec 128) : Uuid := stamped 4 x

/-! ### Text -/

/-- The 32 digits, the highest first. -/
def digits (u : Uuid) : List Char := Number.hexDigits 32 u.bits.toNat

/-- Groups of 8, 4, 4, 4 and 12 digits with hyphens between them. -/
def grouped (ds : List Char) : List Char :=
  ds.take 8 ++ '-' :: (ds.drop 8).take 4 ++ '-' :: (ds.drop 12).take 4 ++
    '-' :: (ds.drop 16).take 4 ++ '-' :: ds.drop 20

/-- The digits of a text in groups. -/
def ungrouped? (cs : List Char) : Option (List Char) :=
  if cs.length = 36 ∧ [8, 13, 18, 23].all (fun i => cs[i]? == some '-') then
    some (cs.take 8 ++ (cs.drop 9).take 4 ++ (cs.drop 14).take 4 ++ (cs.drop 19).take 4 ++ cs.drop 24)
  else none

/-- The written form: lower case, in groups. -/
def text (u : Uuid) : String := String.ofList (grouped u.digits)

/-- Reads a written form. -/
def ofText? (s : String) : Option Uuid :=
  let cs := s.toList
  let ds :=
    if cs.length = 32 then some cs
    else if cs.length = 38 ∧ cs.head? = some '\x7b' ∧ cs.getLast? = some '\x7d' then
      ungrouped? (cs.drop 1).dropLast
    else if cs.length = 45 ∧ (cs.take 9).map Char.toLower = "urn:uuid:".toList then ungrouped? (cs.drop 9)
    else ungrouped? cs
  (ds.bind Number.ofHexDigits?).map fun n => ⟨BitVec.ofNat 128 n⟩

end Uuid

end Drafting
