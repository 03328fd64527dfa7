import ContentLoom.Digest.Block

/-!
# SHA-1

The digest of 20 bytes from which identifiers are derived.
-/

namespace ContentLoom.Digest.Sha1

/-- The five working words. -/
structure State where
  a : UInt32
  b : UInt32
  c : UInt32
  d : UInt32
  e : UInt32

/-- The state before the first block. -/
def initial : State := ⟨0x67452301, 0xefcdab89, 0x98badcfe, 0x10325476, 0xc3d2e1f0⟩

/-- The eighty words that a block is stretched to. -/
def schedule (block : List UInt32) : Array UInt32 :=
  (List.range 64).foldl (fun w i =>
    w.push (rotateLeft
      (w.getD (i + 13) 0 ^^^ w.getD (i + 8) 0 ^^^ w.getD (i + 2) 0 ^^^ w.getD i 0) 1)) block.toArray

/-- The function and the constant of a round. -/
def mix (i : Nat) (b c d : UInt32) : UInt32 × UInt32 :=
  if i < 20 then ((b &&& c) ||| (~~~b &&& d), 0x5a827999)
  else if i < 40 then (b ^^^ c ^^^ d, 0x6ed9eba1)
  else if i < 60 then ((b &&& c) ||| (b &&& d) ||| (c &&& d), 0x8f1bbcdc)
  else (b ^^^ c ^^^ d, 0xca62c1d6)

/-- Takes a block into the state. -/
def absorb (s : State) (block : List UInt32) : State :=
  let w := schedule block
  let r := (List.range 80).foldl (fun (t : State) i =>
    let (f, k) := mix i t.b t.c t.d
    ⟨rotateLeft t.a 5 + f + t.e + k + w.getD i 0, t.a, rotateLeft t.b 30, t.c, t.d⟩) s
  ⟨s.a + r.a, s.b + r.b, s.c + r.c, s.d + r.d, s.e + r.e⟩

/-- The digest of a message. -/
def digest (message : List UInt8) : List UInt8 :=
  let s := (blocks (words (padded message))).foldl absorb initial
  bytesOfWords [s.a, s.b, s.c, s.d, s.e]

end ContentLoom.Digest.Sha1
