import PowGate.JsNumbers
import PowGate.Target

/-! The hash of the solver script, `sha256Str`, with the scratch buffers its calls share, and the
worker that searches with it. Strings are UTF-16 code units and numbers are converted to 32 bits
where the script does it. -/
namespace PowGate.Solver

open Js

/-- `shaBuf`, `shaW` and `shaOut`. -/
structure Scratch where
  buf : Bytes
  w : Vector Int 64
  out : Vector UInt8 32

def Scratch.initial : Scratch := ⟨List.replicate 128 0, Vector.replicate 64 0, Vector.replicate 32 0⟩

/-- `SHA_K`, an `Int32Array`. -/
def shaK : Vector Int 64 := #v[
    0x428a2f98, 0x71374491, 0xb5c0fbcf, 0xe9b5dba5, 0x3956c25b, 0x59f111f1, 0x923f82a4, 0xab1c5ed5,
    0xd807aa98, 0x12835b01, 0x243185be, 0x550c7dc3, 0x72be5d74, 0x80deb1fe, 0x9bdc06a7, 0xc19bf174,
    0xe49b69c1, 0xefbe4786, 0x0fc19dc6, 0x240ca1cc, 0x2de92c6f, 0x4a7484aa, 0x5cb0a9dc, 0x76f988da,
    0x983e5152, 0xa831c66d, 0xb00327c8, 0xbf597fc7, 0xc6e00bf3, 0xd5a79147, 0x06ca6351, 0x14292967,
    0x27b70a85, 0x2e1b2138, 0x4d2c6dfc, 0x53380d13, 0x650a7354, 0x766a0abb, 0x81c2c92e, 0x92722c85,
    0xa2bfe8a1, 0xa81a664b, 0xc24b8b70, 0xc76c51a3, 0xd192e819, 0xd6990624, 0xf40e3585, 0x106aa070,
    0x19a4c116, 0x1e376c08, 0x2748774c, 0x34b0bcb5, 0x391c0cb3, 0x4ed8aa4a, 0x5b9cca4f, 0x682e6ff3,
    0x748f82ee, 0x78a5636f, 0x84c87814, 0x8cc70208, 0x90befffa, 0xa4506ceb, 0xbef9a3f7, 0xc67178f2].map toInt32

/-- `b[i]`. -/
def byteAt (b : Bytes) (i : Int) : Int := if 0 ≤ i then (b.getD i.toNat 0).toNat else 0

/-- `b[i] = x`. -/
def setByte (b : Bytes) (i x : Int) : Bytes := if 0 ≤ i then b.set i.toNat (toUint8 x) else b

/-- `b.fill(0, 0, stop)`; a negative end counts from the end of the array. -/
def fill (b : Bytes) (stop : Int) : Bytes :=
  let stop := if 0 ≤ stop then min stop.toNat b.length else (b.length + stop).toNat
  List.replicate stop 0 ++ b.drop stop

/-- The room for the message and its padding. -/
def total (len : Nat) : Int := shl (sar (len + 9 + 63) 6) 6

/-- `new Uint8Array(total)` when the shared buffer is too small. -/
def grow (buf : Bytes) (total : Int) : Bytes :=
  if (buf.length : Int) < total then List.replicate total.toNat 0 else buf

/-- `shaBuf` with the padded message in it. -/
def fillBuffer (buf : Bytes) (msg : List UInt16) : Bytes :=
  let len := msg.length
  let total := total len
  let b := fill (grow buf total) total
  let b := forLoop 0 len 1 (fun i b => setByte b i (msg.getD i 0).toNat) b
  let b := setByte b len 0x80
  let bits : Int := len * 8
  let b := setByte b (total - 4) (bitAnd (ushr bits 24) 255)
  let b := setByte b (total - 3) (bitAnd (ushr bits 16) 255)
  let b := setByte b (total - 2) (bitAnd (ushr bits 8) 255)
  setByte b (total - 1) (bitAnd bits 255)

/-- `h0` to `h7`, and the eight variables of a round. -/
structure Vars where
  a : Int
  bb : Int
  c : Int
  d : Int
  e : Int
  f : Int
  g : Int
  hh : Int

def Vars.initial : Vars where
  a := bitOr 0x6a09e667 0
  bb := bitOr 0xbb67ae85 0
  c := bitOr 0x3c6ef372 0
  d := bitOr 0xa54ff53a 0
  e := bitOr 0x510e527f 0
  f := bitOr 0x9b05688c 0
  g := bitOr 0x1f83d9ab 0
  hh := bitOr 0x5be0cd19 0

/-- The words of one block. -/
def loadBlock (b : Bytes) (off : Nat) (w : Vector Int 64) : Vector Int 64 :=
  forLoop 0 16 1 (fun i w =>
    let j : Int := off + shl i 2
    store w i (bitOr (bitOr (bitOr (shl (byteAt b j) 24) (shl (byteAt b (j + 1)) 16)) (shl (byteAt b (j + 2)) 8))
      (byteAt b (j + 3)))) w

/-- One word of the message schedule. -/
def extendWord (i : Nat) (w : Vector Int 64) : Vector Int 64 :=
  let x := load w (i - 15)
  let y := load w (i - 2)
  let s0 := bitXor (bitXor (bitOr (ushr x 7) (shl x 25)) (bitOr (ushr x 18) (shl x 14))) (ushr x 3)
  let s1 := bitXor (bitXor (bitOr (ushr y 17) (shl y 15)) (bitOr (ushr y 19) (shl y 13))) (ushr y 10)
  store w i (bitOr (bitOr (load w (i - 16) + s0) 0 + bitOr (load w (i - 7) + s1) 0) 0)

def round (w : Vector Int 64) (i : Nat) (v : Vars) : Vars :=
  let S1 := bitXor (bitXor (bitOr (ushr v.e 6) (shl v.e 26)) (bitOr (ushr v.e 11) (shl v.e 21)))
    (bitOr (ushr v.e 25) (shl v.e 7))
  let ch := bitXor (bitAnd v.e v.f) (bitAnd (bitNot v.e) v.g)
  let t1 := bitOr (bitOr (bitOr (v.hh + S1) 0 + bitOr (ch + load shaK i) 0) 0 + load w i) 0
  let S0 := bitXor (bitXor (bitOr (ushr v.a 2) (shl v.a 30)) (bitOr (ushr v.a 13) (shl v.a 19)))
    (bitOr (ushr v.a 22) (shl v.a 10))
  let maj := bitXor (bitXor (bitAnd v.a v.bb) (bitAnd v.a v.c)) (bitAnd v.bb v.c)
  let t2 := bitOr (S0 + maj) 0
  { hh := v.g, g := v.f, f := v.e, e := bitOr (v.d + t1) 0, d := v.c, c := v.bb, bb := v.a, a := bitOr (t1 + t2) 0 }

/-- One turn of the loop over the blocks. -/
def block (b : Bytes) (off : Nat) (s : Vector Int 64 × Vars) : Vector Int 64 × Vars :=
  let (w, h) := s
  let w := forLoop 16 64 1 extendWord (loadBlock b off w)
  let v := forLoop 0 64 1 (round w) h
  (w, ⟨bitOr (h.a + v.a) 0, bitOr (h.bb + v.bb) 0, bitOr (h.c + v.c) 0, bitOr (h.d + v.d) 0, bitOr (h.e + v.e) 0,
    bitOr (h.f + v.f) 0, bitOr (h.g + v.g) 0, bitOr (h.hh + v.hh) 0⟩)

/-- The four bytes of a word, in `shaOut`. -/
def putWord (o : Vector UInt8 32) (i : Nat) (h : Int) : Vector UInt8 32 :=
  let o := store o i (toUint8 (ushr h 24))
  let o := store o (i + 1) (toUint8 (bitAnd (ushr h 16) 255))
  let o := store o (i + 2) (toUint8 (bitAnd (ushr h 8) 255))
  store o (i + 3) (toUint8 (bitAnd h 255))

/-- A call leaves its result in `out`. -/
def sha256Str (scratch : Scratch) (msg : List UInt16) : Scratch :=
  let b := fillBuffer scratch.buf msg
  let (w, h) := forLoop 0 (total msg.length).toNat 64 (block b) (scratch.w, Vars.initial)
  let o := putWord scratch.out 0 h.a
  let o := putWord o 4 h.bb
  let o := putWord o 8 h.c
  let o := putWord o 12 h.d
  let o := putWord o 16 h.e
  let o := putWord o 20 h.f
  let o := putWord o 24 h.g
  ⟨b, w, putWord o 28 h.hh⟩

/-- The code units of a string. -/
def utf16 (s : List Char) : List UInt16 :=
  s.flatMap fun c =>
    if c.toNat < 0x10000 then [c.toNat.toUInt16]
    else [(0xD800 + (c.toNat - 0x10000) / 1024).toUInt16, (0xDC00 + (c.toNat - 0x10000) % 1024).toUInt16]

/-- The bytes of a string. -/
def utf8 (s : List Char) : Bytes := s.flatMap String.utf8EncodeChar

/-- `hex` of the self test. -/
def hexText (bytes : Bytes) : List Char :=
  bytes.flatMap fun b => (if b < 16 then ['0'] else []) ++ Nat.toDigits 16 b.toNat

/-- `shaSelfTest`. The second vector is tried when the first one passes. -/
def shaSelfTest (scratch : Scratch) : Bool × Scratch :=
  let first := sha256Str scratch (utf16 "abc".toList)
  if hexText first.out.toList = "ba7816bf8f01cfea414140de5dae2223b00361a396177a9cb410ff61f20015ad".toList then
    let second := sha256Str first (utf16 "abcdbcdecdefdefgefghfghighijhijkijkljklmklmnlmnomnopnopq".toList)
    (hexText second.out.toList = "248d6a61d20638b8e5c026930c3e6039a33ce45964ff2167f6ecedd419db06c1".toList, second)
  else (false, first)

/-- What a worker posts. -/
inductive Message where
  | hashed (h : Nat)
  | found (n : Nat)
  | failed
  deriving DecidableEq

/-- The hash tried for a nonce: a number below `2^53` is exact and prints as its decimal digits. -/
def attempt (scratch : Scratch) (salt : List Char) (nonce : Nat) : Scratch :=
  sha256Str scratch (utf16 (salt ++ Nat.toDigits 10 nonce))

/-- The loop of a worker, for so many turns. -/
def search (salt : List Char) (target : Bytes) (stride every : Nat) : Nat → Scratch → Nat → Nat → List Message
  | 0, _, _, _ => []
  | turns + 1, scratch, nonce, count =>
    let scratch := attempt scratch salt nonce
    if below scratch.out.toList target then [.found nonce]
    else if count + 1 = every then
      .hashed (count + 1) :: search salt target stride every turns scratch (nonce + stride) 0
    else search salt target stride every turns scratch (nonce + stride) (count + 1)

/-- A worker on its message, after the self test on loading. -/
def worker (salt : List Char) (target : Bytes) (start stride every turns : Nat) : List Message :=
  let (purejs, scratch) := shaSelfTest Scratch.initial
  if purejs then search salt target stride every turns scratch start 0 else [.failed]

end PowGate.Solver
