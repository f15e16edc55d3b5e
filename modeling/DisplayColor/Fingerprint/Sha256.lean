/-! # SHA-256

The secure hash of FIPS 180-4 with a digest of 256 bits.  A message is padded to whole blocks of 64
bytes; each block is stirred into a state of eight words, which in the end is the digest. -/

namespace DisplayColor.Sha256

/-- The eight words that blocks are stirred into. -/
structure State where
  a : UInt32
  b : UInt32
  c : UInt32
  d : UInt32
  e : UInt32
  f : UInt32
  g : UInt32
  h : UInt32
deriving DecidableEq, Repr

instance : Add State where
  add s t :=
    ⟨s.a + t.a, s.b + t.b, s.c + t.c, s.d + t.d, s.e + t.e, s.f + t.f, s.g + t.g, s.h + t.h⟩

def initial : State :=
  ⟨0x6a09e667, 0xbb67ae85, 0x3c6ef372, 0xa54ff53a, 0x510e527f, 0x9b05688c, 0x1f83d9ab, 0x5be0cd19⟩

def roundConstants : List UInt32 :=
  [0x428a2f98, 0x71374491, 0xb5c0fbcf, 0xe9b5dba5, 0x3956c25b, 0x59f111f1, 0x923f82a4, 0xab1c5ed5,
    0xd807aa98, 0x12835b01, 0x243185be, 0x550c7dc3, 0x72be5d74, 0x80deb1fe, 0x9bdc06a7, 0xc19bf174,
    0xe49b69c1, 0xefbe4786, 0x0fc19dc6, 0x240ca1cc, 0x2de92c6f, 0x4a7484aa, 0x5cb0a9dc, 0x76f988da,
    0x983e5152, 0xa831c66d, 0xb00327c8, 0xbf597fc7, 0xc6e00bf3, 0xd5a79147, 0x06ca6351, 0x14292967,
    0x27b70a85, 0x2e1b2138, 0x4d2c6dfc, 0x53380d13, 0x650a7354, 0x766a0abb, 0x81c2c92e, 0x92722c85,
    0xa2bfe8a1, 0xa81a664b, 0xc24b8b70, 0xc76c51a3, 0xd192e819, 0xd6990624, 0xf40e3585, 0x106aa070,
    0x19a4c116, 0x1e376c08, 0x2748774c, 0x34b0bcb5, 0x391c0cb3, 0x4ed8aa4a, 0x5b9cca4f, 0x682e6ff3,
    0x748f82ee, 0x78a5636f, 0x84c87814, 0x8cc70208, 0x90befffa, 0xa4506ceb, 0xbef9a3f7, 0xc67178f2]

/-- Turns a word to the right by `n` bits, where `0 < n < 32`. -/
def rotateRight (word : UInt32) (n : UInt32) : UInt32 := (word >>> n) ||| (word <<< (32 - n))

/-- The word that bytes stand for, the highest byte first. -/
def bigEndian (bytes : List UInt8) : UInt32 :=
  bytes.foldl (fun word byte => (word <<< 8) ||| byte.toUInt32) 0

def blockWords (block : List UInt8) : Array UInt32 :=
  Array.ofFn fun i : Fin 16 => bigEndian ((block.drop (4 * i)).take 4)

/-- Continues the words of a block by one that depends on the sixteen before it. -/
def extend (words : Array UInt32) : Array UInt32 :=
  let back (n : Nat) : UInt32 := words.getD (words.size - n) 0
  let early := back 15
  let late := back 2
  let mixedEarly := rotateRight early 7 ^^^ rotateRight early 18 ^^^ (early >>> 3)
  let mixedLate := rotateRight late 17 ^^^ rotateRight late 19 ^^^ (late >>> 10)
  words.push (back 16 + mixedEarly + back 7 + mixedLate)

def schedule (block : List UInt8) : Array UInt32 := Nat.repeat extend 48 (blockWords block)

def round (s : State) (input : UInt32) : State :=
  let stirE := rotateRight s.e 6 ^^^ rotateRight s.e 11 ^^^ rotateRight s.e 25
  let choice := (s.e &&& s.f) ^^^ ((~~~ s.e) &&& s.g)
  let first := s.h + stirE + choice + input
  let stirA := rotateRight s.a 2 ^^^ rotateRight s.a 13 ^^^ rotateRight s.a 22
  let majority := (s.a &&& s.b) ^^^ (s.a &&& s.c) ^^^ (s.b &&& s.c)
  ⟨first + (stirA + majority), s.a, s.b, s.c, s.d + first, s.e, s.f, s.g⟩

def compress (s : State) (block : List UInt8) : State :=
  s + (List.zipWith (· + ·) roundConstants (schedule block).toList).foldl round s

/-- A message followed by one bit, zeros up to eight bytes before the end of a block, and the number
of its bits. -/
def padded (message : List UInt8) : List UInt8 :=
  -- With the byte of the bit and the eight of the number, whole blocks are full.
  let zeros := (119 - message.length % 64) % 64
  let bits := 8 * message.length
  let count : List UInt8 := (List.range 8).map fun i => UInt8.ofNat (bits >>> (8 * (7 - i)))
  message ++ 0x80 :: (List.replicate zeros 0 ++ count)

def absorb : Nat → State → List UInt8 → State
  | 0, s, _ => s
  | count + 1, s, bytes => absorb count (compress s (bytes.take 64)) (bytes.drop 64)

def digest (message : List UInt8) : State :=
  let bytes := padded message
  absorb (bytes.length / 64) initial bytes

def hexWord (word : UInt32) : String :=
  String.ofList ((List.range 8).map fun i => Nat.digitChar (word.toNat >>> (4 * (7 - i)) % 16))

def hexDigest (message : List UInt8) : String :=
  let s := digest message
  String.join ([s.a, s.b, s.c, s.d, s.e, s.f, s.g, s.h].map hexWord)

end DisplayColor.Sha256
