/-!
# Blocks of a message

The digests of this library read a message in blocks of 64 bytes, each taken as
sixteen big-endian words.  The message is followed by the byte `0x80`, by zeros
and by its length in bits, so that whole blocks remain.
-/

namespace ContentLoom.Digest

/-- The big-endian bytes of a number, exactly `n` of them. -/
def bytesOf (n : Nat) (value : Nat) : List UInt8 :=
  (List.range n).map fun i => UInt8.ofNat (value / Nat.pow 256 (n - 1 - i))

theorem length_bytesOf (n value : Nat) : (bytesOf n value).length = n := by simp [bytesOf]

/-- The message with its padding. -/
def padded (message : List UInt8) : List UInt8 :=
  let zeros := (119 - message.length % 64) % 64
  message ++ 0x80 :: (List.replicate zeros 0 ++ bytesOf 8 (8 * message.length))

theorem length_padded (message : List UInt8) : (padded message).length % 64 = 0 := by
  simp [padded, length_bytesOf]
  omega

/-- The big-endian words of the bytes; fewer than four bytes at the end are left out. -/
def words : List UInt8 → List UInt32
  | a :: b :: c :: d :: rest =>
    (a.toUInt32 <<< 24 ||| b.toUInt32 <<< 16 ||| c.toUInt32 <<< 8 ||| d.toUInt32) :: words rest
  | _ => []

/-- The blocks of sixteen words. -/
def blocks (ws : List UInt32) : List (List UInt32) :=
  go ws.length ws
where
  /-- At most as many blocks as there are words. -/
  go : Nat → List UInt32 → List (List UInt32)
    | 0, _ => []
    | _, [] => []
    | fuel + 1, ws => ws.take 16 :: go fuel (ws.drop 16)

/-- A word turned left by `n` bits. -/
def rotateLeft (x : UInt32) (n : UInt32) : UInt32 := (x <<< n) ||| (x >>> (32 - n))

/-- A word turned right by `n` bits. -/
def rotateRight (x : UInt32) (n : UInt32) : UInt32 := (x >>> n) ||| (x <<< (32 - n))

/-- The bytes of words, most significant first. -/
def bytesOfWords (ws : List UInt32) : List UInt8 := ws.flatMap fun w => bytesOf 4 w.toNat

/-- A digit of hexadecimal text. -/
def hexDigit (n : Nat) : Char := Nat.digitChar n

/-- Two small hexadecimal digits for every byte. -/
def hex (bytes : List UInt8) : List Char :=
  bytes.flatMap fun b => [hexDigit (b.toNat / 16), hexDigit (b.toNat % 16)]

theorem length_hex (bytes : List UInt8) : (hex bytes).length = 2 * bytes.length := by
  induction bytes with
  | nil => rfl
  | cons b rest ih =>
    simp only [hex, List.flatMap_cons, List.length_append, List.length_cons, List.length_nil] at ih ⊢
    omega

end ContentLoom.Digest
