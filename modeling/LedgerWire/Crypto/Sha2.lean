/-
# The SHA-2 hash functions

One construction, two widths: a message is filled up to whole blocks of sixteen words, and each
block is mixed into a state of eight words by a number of rounds. SHA-256 works on words of 32 bits
in 64 rounds, SHA-512 on words of 64 bits in 80; the rotation amounts and the tables differ.

* `Sha2.digest` — the hash of a byte string under a variant.
* `Sha2.variant256`, `Sha2.variant512` — the two members used here.
-/

import LedgerWire.Text.Bits

namespace LedgerWire.Sha2

/-- Three rotations whose results are joined by exclusive or. -/
structure Rotations where
  first : Nat
  second : Nat
  third : Nat

/-- Two rotations and a shift whose results are joined by exclusive or. -/
structure Smear where
  first : Nat
  second : Nat
  shift : Nat

/-- What one member of the family fixes, over words of `w` bits. -/
structure Variant (w : Nat) where
  mixA : Rotations
  mixE : Rotations
  early : Smear
  late : Smear
  initial : List (BitVec w)
  constants : List (BitVec w)

section Rounds

variable {w : Nat}

def Rotations.apply (r : Rotations) (x : BitVec w) : BitVec w :=
  x.rotateRight r.first ^^^ x.rotateRight r.second ^^^ x.rotateRight r.third

def Smear.apply (s : Smear) (x : BitVec w) : BitVec w :=
  x.rotateRight s.first ^^^ x.rotateRight s.second ^^^ (x >>> s.shift)

/-- The eight words that the rounds work on. -/
structure State (w : Nat) where
  a : BitVec w
  b : BitVec w
  c : BitVec w
  d : BitVec w
  e : BitVec w
  f : BitVec w
  g : BitVec w
  h : BitVec w

def State.ofList (words : List (BitVec w)) : State w :=
  let at_ i := words.getD i 0
  ⟨at_ 0, at_ 1, at_ 2, at_ 3, at_ 4, at_ 5, at_ 6, at_ 7⟩

def State.toList (s : State w) : List (BitVec w) := [s.a, s.b, s.c, s.d, s.e, s.f, s.g, s.h]

/-- One round with its message word and its constant. -/
def round (v : Variant w) (s : State w) (word constant : BitVec w) : State w :=
  let choice := (s.e &&& s.f) ^^^ (~~~s.e &&& s.g)
  let majority := (s.a &&& s.b) ^^^ (s.a &&& s.c) ^^^ (s.b &&& s.c)
  let t₁ := s.h + v.mixE.apply s.e + choice + constant + word
  let t₂ := v.mixA.apply s.a + majority
  ⟨t₁ + t₂, s.a, s.b, s.c, s.d + t₁, s.e, s.f, s.g⟩

/-- Adds `count` words to a message schedule, which is held latest word first. -/
def extend (v : Variant w) : (count : Nat) → List (BitVec w) → List (BitVec w)
  | 0, latest => latest
  | count + 1, latest =>
      let back i := latest.getD (i - 1) 0
      let next := v.late.apply (back 2) + back 7 + v.early.apply (back 15) + back 16
      extend v count (next :: latest)

/-- The message schedule of a block: its own words, then one word per further round. -/
def schedule (v : Variant w) (block : List (BitVec w)) : List (BitVec w) :=
  (extend v (v.constants.length - 16) block.reverse).reverse

/-- Mixes one block into a state. -/
def absorb (v : Variant w) (s : State w) (block : List (BitVec w)) : State w :=
  let mixed := ((schedule v block).zip v.constants).foldl
    (fun t (word, constant) => round v t word constant) s
  State.ofList (List.zipWith (· + ·) s.toList mixed.toList)

end Rounds

/-- A message filled up to whole blocks: a set bit, zeros, and the length in bits on two words. -/
def padded (w : Nat) (message : Bytes) : Bytes :=
  let block := 2 * w
  let field := w / 4
  let zeros := (2 * block - (message.length + 1 + field) % block) % block
  message ++ [0x80] ++ List.replicate zeros 0 ++ Bytes.bigEndian field (8 * message.length)

/-- The words of a byte string of whole words. -/
def words (w : Nat) (bytes : Bytes) : List (BitVec w) :=
  (Text.pieces (w / 8 - 1) bytes).map fun piece => BitVec.ofNat w (Bytes.toNat piece)

def digest {w : Nat} (v : Variant w) (message : Bytes) : Bytes :=
  let blocks := Text.pieces 15 (words w (padded w message))
  let final := blocks.foldl (absorb v) (State.ofList v.initial)
  final.toList.flatMap fun word => Bytes.bigEndian (w / 8) word.toNat

/-- The member with words of 32 bits. -/
def variant256 : Variant 32 where
  mixA := ⟨2, 13, 22⟩
  mixE := ⟨6, 11, 25⟩
  early := ⟨7, 18, 3⟩
  late := ⟨17, 19, 10⟩
  initial :=
   [0x6a09e667#32, 0xbb67ae85#32, 0x3c6ef372#32, 0xa54ff53a#32, 0x510e527f#32, 0x9b05688c#32,
    0x1f83d9ab#32, 0x5be0cd19#32]
  constants :=
   [0x428a2f98#32, 0x71374491#32, 0xb5c0fbcf#32, 0xe9b5dba5#32, 0x3956c25b#32, 0x59f111f1#32,
    0x923f82a4#32, 0xab1c5ed5#32, 0xd807aa98#32, 0x12835b01#32, 0x243185be#32, 0x550c7dc3#32,
    0x72be5d74#32, 0x80deb1fe#32, 0x9bdc06a7#32, 0xc19bf174#32, 0xe49b69c1#32, 0xefbe4786#32,
    0x0fc19dc6#32, 0x240ca1cc#32, 0x2de92c6f#32, 0x4a7484aa#32, 0x5cb0a9dc#32, 0x76f988da#32,
    0x983e5152#32, 0xa831c66d#32, 0xb00327c8#32, 0xbf597fc7#32, 0xc6e00bf3#32, 0xd5a79147#32,
    0x06ca6351#32, 0x14292967#32, 0x27b70a85#32, 0x2e1b2138#32, 0x4d2c6dfc#32, 0x53380d13#32,
    0x650a7354#32, 0x766a0abb#32, 0x81c2c92e#32, 0x92722c85#32, 0xa2bfe8a1#32, 0xa81a664b#32,
    0xc24b8b70#32, 0xc76c51a3#32, 0xd192e819#32, 0xd6990624#32, 0xf40e3585#32, 0x106aa070#32,
    0x19a4c116#32, 0x1e376c08#32, 0x2748774c#32, 0x34b0bcb5#32, 0x391c0cb3#32, 0x4ed8aa4a#32,
    0x5b9cca4f#32, 0x682e6ff3#32, 0x748f82ee#32, 0x78a5636f#32, 0x84c87814#32, 0x8cc70208#32,
    0x90befffa#32, 0xa4506ceb#32, 0xbef9a3f7#32, 0xc67178f2#32]

/-- The member with words of 64 bits. -/
def variant512 : Variant 64 where
  mixA := ⟨28, 34, 39⟩
  mixE := ⟨14, 18, 41⟩
  early := ⟨1, 8, 7⟩
  late := ⟨19, 61, 6⟩
  initial :=
   [0x6a09e667f3bcc908#64, 0xbb67ae8584caa73b#64, 0x3c6ef372fe94f82b#64,
    0xa54ff53a5f1d36f1#64, 0x510e527fade682d1#64, 0x9b05688c2b3e6c1f#64,
    0x1f83d9abfb41bd6b#64, 0x5be0cd19137e2179#64]
  constants :=
   [0x428a2f98d728ae22#64, 0x7137449123ef65cd#64, 0xb5c0fbcfec4d3b2f#64,
    0xe9b5dba58189dbbc#64, 0x3956c25bf348b538#64, 0x59f111f1b605d019#64,
    0x923f82a4af194f9b#64, 0xab1c5ed5da6d8118#64, 0xd807aa98a3030242#64,
    0x12835b0145706fbe#64, 0x243185be4ee4b28c#64, 0x550c7dc3d5ffb4e2#64,
    0x72be5d74f27b896f#64, 0x80deb1fe3b1696b1#64, 0x9bdc06a725c71235#64,
    0xc19bf174cf692694#64, 0xe49b69c19ef14ad2#64, 0xefbe4786384f25e3#64,
    0x0fc19dc68b8cd5b5#64, 0x240ca1cc77ac9c65#64, 0x2de92c6f592b0275#64,
    0x4a7484aa6ea6e483#64, 0x5cb0a9dcbd41fbd4#64, 0x76f988da831153b5#64,
    0x983e5152ee66dfab#64, 0xa831c66d2db43210#64, 0xb00327c898fb213f#64,
    0xbf597fc7beef0ee4#64, 0xc6e00bf33da88fc2#64, 0xd5a79147930aa725#64,
    0x06ca6351e003826f#64, 0x142929670a0e6e70#64, 0x27b70a8546d22ffc#64,
    0x2e1b21385c26c926#64, 0x4d2c6dfc5ac42aed#64, 0x53380d139d95b3df#64,
    0x650a73548baf63de#64, 0x766a0abb3c77b2a8#64, 0x81c2c92e47edaee6#64,
    0x92722c851482353b#64, 0xa2bfe8a14cf10364#64, 0xa81a664bbc423001#64,
    0xc24b8b70d0f89791#64, 0xc76c51a30654be30#64, 0xd192e819d6ef5218#64,
    0xd69906245565a910#64, 0xf40e35855771202a#64, 0x106aa07032bbd1b8#64,
    0x19a4c116b8d2d0c8#64, 0x1e376c085141ab53#64, 0x2748774cdf8eeb99#64,
    0x34b0bcb5e19b48a8#64, 0x391c0cb3c5c95a63#64, 0x4ed8aa4ae3418acb#64,
    0x5b9cca4f7763e373#64, 0x682e6ff3d6b2b8a3#64, 0x748f82ee5defb2fc#64,
    0x78a5636f43172f60#64, 0x84c87814a1f0ab72#64, 0x8cc702081a6439ec#64,
    0x90befffa23631e28#64, 0xa4506cebde82bde9#64, 0xbef9a3f7b2c67915#64,
    0xc67178f2e372532b#64, 0xca273eceea26619c#64, 0xd186b8c721c0c207#64,
    0xeada7dd6cde0eb1e#64, 0xf57d4f7fee6ed178#64, 0x06f067aa72176fba#64,
    0x0a637dc5a2c898a6#64, 0x113f9804bef90dae#64, 0x1b710b35131c471b#64,
    0x28db77f523047d84#64, 0x32caab7b40c72493#64, 0x3c9ebe0a15c9bebc#64,
    0x431d67c49c100d4c#64, 0x4cc5d4becb3e42b6#64, 0x597f299cfc657e2a#64,
    0x5fcb6fab3ad6faec#64, 0x6c44198c4a475817#64]

end LedgerWire.Sha2

namespace LedgerWire

def sha512 (message : Bytes) : Bytes := Sha2.digest Sha2.variant512 message

end LedgerWire
