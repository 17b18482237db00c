/-! The SHA-1 digest, which turns names into identifiers.

A message is closed by a one bit, zeros and its length, cut into blocks of
sixteen words, and folded block by block into five words. Each block is first
stretched to eighty words (`schedule`). -/
namespace Drafting.Sha1

/-- The five words of a digest. -/
structure Digest where
  a : UInt32
  b : UInt32
  c : UInt32
  d : UInt32
  e : UInt32
  deriving DecidableEq, Repr

/-- The digest that no block has changed yet. -/
def Digest.initial : Digest := ⟨0x67452301, 0xefcdab89, 0x98badcfe, 0x10325476, 0xc3d2e1f0⟩

def Digest.add (s t : Digest) : Digest := ⟨s.a + t.a, s.b + t.b, s.c + t.c, s.d + t.d, s.e + t.e⟩

def rotate (x n : UInt32) : UInt32 := (x <<< n) ||| (x >>> (32 - n))

/-- `n` as `count` bytes, the highest first; what does not fit is lost. -/
def bigEndian (count n : Nat) : List UInt8 :=
  (List.range count).map fun i => UInt8.ofNat (n >>> (8 * (count - 1 - i)))

/-- The message with its closing: a whole number of blocks of 64 bytes. -/
def closed (message : List UInt8) : List UInt8 :=
  let n := message.length
  message ++ 0x80 :: List.replicate ((119 - n % 64) % 64) 0 ++ bigEndian 8 (8 * n)

/-- Four bytes make a word. -/
def words : List UInt8 → List UInt32
  | p :: q :: r :: s :: rest =>
    (p.toUInt32 <<< 24 ||| q.toUInt32 <<< 16 ||| r.toUInt32 <<< 8 ||| s.toUInt32) :: words rest
  | _ => []

/-- The eighty words that a block of sixteen is stretched to. -/
def schedule (block : Array UInt32) : Array UInt32 :=
  (List.range 64).foldl
    (fun w i => w.push (rotate (w.getD (i + 13) 0 ^^^ w.getD (i + 8) 0 ^^^ w.getD (i + 2) 0 ^^^ w.getD i 0) 1))
    block

/-- One of the eighty rounds: twenty each of choice, parity, majority and parity. -/
def round (s : Digest) (i : Nat) (w : UInt32) : Digest :=
  let mixed : UInt32 :=
    if i < 20 then ((s.b &&& s.c) ||| (~~~s.b &&& s.d)) + 0x5a827999
    else if i < 40 then (s.b ^^^ s.c ^^^ s.d) + 0x6ed9eba1
    else if i < 60 then ((s.b &&& s.c) ||| (s.b &&& s.d) ||| (s.c &&& s.d)) + 0x8f1bbcdc
    else (s.b ^^^ s.c ^^^ s.d) + 0xca62c1d6
  ⟨rotate s.a 5 + mixed + s.e + w, s.a, rotate s.b 30, s.c, s.d⟩

/-- Folds a block of sixteen words into a digest. -/
def absorb (s : Digest) (block : List UInt32) : Digest :=
  s.add ((schedule block.toArray).toList.zipIdx.foldl (fun s p => round s p.2 p.1) s)

/-- The digest of a message. -/
def digest (message : List UInt8) : Digest :=
  let ws := words (closed message)
  (List.range (ws.length / 16)).foldl (fun s i => absorb s ((ws.drop (16 * i)).take 16)) .initial

end Drafting.Sha1
