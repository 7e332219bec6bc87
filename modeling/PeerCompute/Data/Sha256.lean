import Mathlib.Data.List.Basic

/-! The SHA-256 hash function on byte lists. -/

namespace PeerCompute.Data.Sha256

def roundConstants : List UInt32 :=
  [0x428a2f98, 0x71374491, 0xb5c0fbcf, 0xe9b5dba5, 0x3956c25b, 0x59f111f1, 0x923f82a4, 0xab1c5ed5,
   0xd807aa98, 0x12835b01, 0x243185be, 0x550c7dc3, 0x72be5d74, 0x80deb1fe, 0x9bdc06a7, 0xc19bf174,
   0xe49b69c1, 0xefbe4786, 0x0fc19dc6, 0x240ca1cc, 0x2de92c6f, 0x4a7484aa, 0x5cb0a9dc, 0x76f988da,
   0x983e5152, 0xa831c66d, 0xb00327c8, 0xbf597fc7, 0xc6e00bf3, 0xd5a79147, 0x06ca6351, 0x14292967,
   0x27b70a85, 0x2e1b2138, 0x4d2c6dfc, 0x53380d13, 0x650a7354, 0x766a0abb, 0x81c2c92e, 0x92722c85,
   0xa2bfe8a1, 0xa81a664b, 0xc24b8b70, 0xc76c51a3, 0xd192e819, 0xd6990624, 0xf40e3585, 0x106aa070,
   0x19a4c116, 0x1e376c08, 0x2748774c, 0x34b0bcb5, 0x391c0cb3, 0x4ed8aa4a, 0x5b9cca4f, 0x682e6ff3,
   0x748f82ee, 0x78a5636f, 0x84c87814, 0x8cc70208, 0x90befffa, 0xa4506ceb, 0xbef9a3f7, 0xc67178f2]

structure State where
  a : UInt32
  b : UInt32
  c : UInt32
  d : UInt32
  e : UInt32
  f : UInt32
  g : UInt32
  h : UInt32

def initial : State :=
  ⟨0x6a09e667, 0xbb67ae85, 0x3c6ef372, 0xa54ff53a, 0x510e527f, 0x9b05688c, 0x1f83d9ab, 0x5be0cd19⟩

def rotr (x n : UInt32) : UInt32 := (x >>> n) ||| (x <<< (32 - n))

/-- The 64 words of a block's schedule, newest first, from its 16 words, newest first. -/
def schedule : Nat → List UInt32 → List UInt32
  | 0, ws => ws
  | n + 1, ws =>
    let w2 := ws.getD 1 0
    let w15 := ws.getD 14 0
    let s0 := rotr w15 7 ^^^ rotr w15 18 ^^^ (w15 >>> 3)
    let s1 := rotr w2 17 ^^^ rotr w2 19 ^^^ (w2 >>> 10)
    schedule n ((ws.getD 15 0 + s0 + ws.getD 6 0 + s1) :: ws)

def round (s : State) (kw : UInt32 × UInt32) : State :=
  let s1 := rotr s.e 6 ^^^ rotr s.e 11 ^^^ rotr s.e 25
  let ch := (s.e &&& s.f) ^^^ ((~~~ s.e) &&& s.g)
  let t1 := s.h + s1 + ch + kw.1 + kw.2
  let s0 := rotr s.a 2 ^^^ rotr s.a 13 ^^^ rotr s.a 22
  let maj := (s.a &&& s.b) ^^^ (s.a &&& s.c) ^^^ (s.b &&& s.c)
  ⟨t1 + s0 + maj, s.a, s.b, s.c, s.d + t1, s.e, s.f, s.g⟩

def word : List UInt8 → UInt32
  | [a, b, c, d] => (a.toUInt32 <<< 24) ||| (b.toUInt32 <<< 16) ||| (c.toUInt32 <<< 8) ||| d.toUInt32
  | _ => 0

def words : Nat → List UInt8 → List UInt32
  | 0, _ => []
  | n + 1, bytes => word (bytes.take 4) :: words n (bytes.drop 4)

def compress (s : State) (block : List UInt8) : State :=
  let ws := (schedule 48 (words 16 block).reverse).reverse
  let s' := (roundConstants.zip ws).foldl round s
  ⟨s.a + s'.a, s.b + s'.b, s.c + s'.c, s.d + s'.d, s.e + s'.e, s.f + s'.f, s.g + s'.g, s.h + s'.h⟩

def wordBytes (w : UInt32) : List UInt8 :=
  [(w >>> 24).toUInt8, (w >>> 16).toUInt8, (w >>> 8).toUInt8, w.toUInt8]

def pad (msg : List UInt8) : List UInt8 :=
  let bits := 8 * msg.length
  msg ++ 0x80 :: List.replicate ((119 - msg.length % 64) % 64) 0 ++
    wordBytes (UInt32.ofNat (bits / 0x100000000)) ++ wordBytes (UInt32.ofNat bits)

def blocks : Nat → State → List UInt8 → State
  | 0, s, _ => s
  | n + 1, s, bytes => blocks n (compress s (bytes.take 64)) (bytes.drop 64)

def State.bytes (s : State) : List UInt8 :=
  wordBytes s.a ++ wordBytes s.b ++ wordBytes s.c ++ wordBytes s.d ++
    wordBytes s.e ++ wordBytes s.f ++ wordBytes s.g ++ wordBytes s.h

end Sha256

def sha256 (msg : List UInt8) : List UInt8 :=
  let padded := Sha256.pad msg
  (Sha256.blocks (padded.length / 64) Sha256.initial padded).bytes

@[simp] theorem length_sha256 (msg : List UInt8) : (sha256 msg).length = 32 := rfl

set_option maxRecDepth 20000 in
example : (sha256 [0x61, 0x62, 0x63]).take 4 = [0xba, 0x78, 0x16, 0xbf] := by decide +kernel

end PeerCompute.Data
