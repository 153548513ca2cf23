import Gfiber.Lib.Word

/-! SHA-256, as the digest the library call computes. Words of the schedule are
kept newest first. -/

set_option autoImplicit false

namespace Gfiber.Lib.Sha256

def roundConstants : List Word :=
  [0x428a2f98, 0x71374491, 0xb5c0fbcf, 0xe9b5dba5, 0x3956c25b, 0x59f111f1, 0x923f82a4, 0xab1c5ed5,
    0xd807aa98, 0x12835b01, 0x243185be, 0x550c7dc3, 0x72be5d74, 0x80deb1fe, 0x9bdc06a7, 0xc19bf174,
    0xe49b69c1, 0xefbe4786, 0x0fc19dc6, 0x240ca1cc, 0x2de92c6f, 0x4a7484aa, 0x5cb0a9dc, 0x76f988da,
    0x983e5152, 0xa831c66d, 0xb00327c8, 0xbf597fc7, 0xc6e00bf3, 0xd5a79147, 0x06ca6351, 0x14292967,
    0x27b70a85, 0x2e1b2138, 0x4d2c6dfc, 0x53380d13, 0x650a7354, 0x766a0abb, 0x81c2c92e, 0x92722c85,
    0xa2bfe8a1, 0xa81a664b, 0xc24b8b70, 0xc76c51a3, 0xd192e819, 0xd6990624, 0xf40e3585, 0x106aa070,
    0x19a4c116, 0x1e376c08, 0x2748774c, 0x34b0bcb5, 0x391c0cb3, 0x4ed8aa4a, 0x5b9cca4f, 0x682e6ff3,
    0x748f82ee, 0x78a5636f, 0x84c87814, 0x8cc70208, 0x90befffa, 0xa4506ceb, 0xbef9a3f7, 0xc67178f2]

structure Digest where
  a : Word
  b : Word
  c : Word
  d : Word
  e : Word
  f : Word
  g : Word
  h : Word
  deriving DecidableEq, Repr

def Digest.initial : Digest :=
  ⟨0x6a09e667, 0xbb67ae85, 0x3c6ef372, 0xa54ff53a, 0x510e527f, 0x9b05688c, 0x1f83d9ab, 0x5be0cd19⟩

def nextWord (newest : List Word) : Word :=
  let early := newest.getD 14 0
  let late := newest.getD 1 0
  (late.rotateRight 17 ^^^ late.rotateRight 19 ^^^ (late >>> 10)) + newest.getD 6 0 +
    (early.rotateRight 7 ^^^ early.rotateRight 18 ^^^ (early >>> 3)) + newest.getD 15 0

def extend : Nat → List Word → List Word
  | 0, newest => newest
  | rounds + 1, newest => extend rounds (nextWord newest :: newest)

def step (s : Digest) (input : Word × Word) : Digest :=
  let t1 := s.h + (s.e.rotateRight 6 ^^^ s.e.rotateRight 11 ^^^ s.e.rotateRight 25) +
    ((s.e &&& s.f) ^^^ (~~~ s.e &&& s.g)) + input.1 + input.2
  let t2 := (s.a.rotateRight 2 ^^^ s.a.rotateRight 13 ^^^ s.a.rotateRight 22) +
    ((s.a &&& s.b) ^^^ (s.a &&& s.c) ^^^ (s.b &&& s.c))
  ⟨t1 + t2, s.a, s.b, s.c, s.d + t1, s.e, s.f, s.g⟩

def compress (s : Digest) (block : List Word) : Digest :=
  let worked := (roundConstants.zip (extend 48 block.reverse).reverse).foldl step s
  ⟨s.a + worked.a, s.b + worked.b, s.c + worked.c, s.d + worked.d, s.e + worked.e, s.f + worked.f,
    s.g + worked.g, s.h + worked.h⟩

def pad (message : List Byte) : List Byte :=
  message ++ [0x80] ++ List.replicate ((119 - message.length % 64) % 64) 0 ++
    (List.range 8).map fun place => BitVec.ofNat 8 (8 * message.length / 256 ^ (7 - place))

def wordsOf : List Byte → List Word
  | first :: second :: third :: fourth :: rest => (first ++ second ++ third ++ fourth) :: wordsOf rest
  | _ => []

def compressBlocks : Nat → Digest → List Word → Digest
  | 0, s, _ => s
  | blocks + 1, s, words => compressBlocks blocks (compress s (words.take 16)) (words.drop 16)

def digest (message : List Byte) : Digest :=
  compressBlocks ((message.length + 72) / 64) .initial (wordsOf (pad message))

def sha256 (message : List Byte) : Vector Word 8 :=
  let s := digest message
  #v[byteSwap s.a, byteSwap s.b, byteSwap s.c, byteSwap s.d, byteSwap s.e, byteSwap s.f,
    byteSwap s.g, byteSwap s.h]

example : digest [0x61, 0x62, 0x63] =
    ⟨0xba7816bf, 0x8f01cfea, 0x414140de, 0x5dae2223, 0xb00361a3, 0x96177a9c, 0xb410ff61,
      0xf20015ad⟩ := by decide +kernel

end Gfiber.Lib.Sha256
