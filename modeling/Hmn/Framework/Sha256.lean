/-
  Hmn.Framework.Sha256 — the SHA-256 digest of a text, in hexadecimal, and
  its keyed digest.

  Words are naturals below 2^32 and the message is the list of bytes of the
  UTF-8 encoding, so that a digest of a concrete text evaluates.

  Main result: `hexdigest_ne_empty` — a digest is never the empty text.
-/
import Mathlib.Data.List.Basic
import Mathlib.Tactic.Common

namespace Hmn.Framework.Sha256

/-! ## §1. Words. -/

def word (n : Nat) : Nat := n % 4294967296

def rotr (x n : Nat) : Nat := word ((x >>> n) ||| (x <<< (32 - n)))

/-- The round constants. -/
def roundConstants : List Nat := [
  0x428a2f98, 0x71374491, 0xb5c0fbcf, 0xe9b5dba5, 0x3956c25b, 0x59f111f1, 0x923f82a4, 0xab1c5ed5,
  0xd807aa98, 0x12835b01, 0x243185be, 0x550c7dc3, 0x72be5d74, 0x80deb1fe, 0x9bdc06a7, 0xc19bf174,
  0xe49b69c1, 0xefbe4786, 0x0fc19dc6, 0x240ca1cc, 0x2de92c6f, 0x4a7484aa, 0x5cb0a9dc, 0x76f988da,
  0x983e5152, 0xa831c66d, 0xb00327c8, 0xbf597fc7, 0xc6e00bf3, 0xd5a79147, 0x06ca6351, 0x14292967,
  0x27b70a85, 0x2e1b2138, 0x4d2c6dfc, 0x53380d13, 0x650a7354, 0x766a0abb, 0x81c2c92e, 0x92722c85,
  0xa2bfe8a1, 0xa81a664b, 0xc24b8b70, 0xc76c51a3, 0xd192e819, 0xd6990624, 0xf40e3585, 0x106aa070,
  0x19a4c116, 0x1e376c08, 0x2748774c, 0x34b0bcb5, 0x391c0cb3, 0x4ed8aa4a, 0x5b9cca4f, 0x682e6ff3,
  0x748f82ee, 0x78a5636f, 0x84c87814, 0x8cc70208, 0x90befffa, 0xa4506ceb, 0xbef9a3f7, 0xc67178f2]

/-- The eight working variables. -/
structure Vars where
  a : Nat
  b : Nat
  c : Nat
  d : Nat
  e : Nat
  f : Nat
  g : Nat
  h : Nat

def initial : Vars :=
  ⟨0x6a09e667, 0xbb67ae85, 0x3c6ef372, 0xa54ff53a, 0x510e527f, 0x9b05688c, 0x1f83d9ab, 0x5be0cd19⟩

/-! ## §2. The compression function. -/

/-- One round with constant `k` and schedule word `w`. -/
def round (v : Vars) (k w : Nat) : Vars :=
  let s1 := rotr v.e 6 ^^^ rotr v.e 11 ^^^ rotr v.e 25
  let ch := (v.e &&& v.f) ^^^ ((4294967295 - v.e) &&& v.g)
  let t1 := word (v.h + s1 + ch + k + w)
  let s0 := rotr v.a 2 ^^^ rotr v.a 13 ^^^ rotr v.a 22
  let maj := (v.a &&& v.b) ^^^ (v.a &&& v.c) ^^^ (v.b &&& v.c)
  ⟨word (t1 + word (s0 + maj)), v.a, v.b, v.c, word (v.d + t1), v.e, v.f, v.g⟩

/-- The next schedule word, from the last sixteen (the newest last). -/
def scheduleWord (ws : List Nat) : Nat :=
  let w15 := ws.getD 1 0
  let w2 := ws.getD 14 0
  let s0 := rotr w15 7 ^^^ rotr w15 18 ^^^ (w15 >>> 3)
  let s1 := rotr w2 17 ^^^ rotr w2 19 ^^^ (w2 >>> 10)
  word (ws.getD 0 0 + s0 + ws.getD 9 0 + s1)

/-- All rounds, with the sixteen schedule words that come next. -/
def rounds : List Nat → List Nat → Vars → Vars
  | [], _, v => v
  | k :: ks, ws, v => rounds ks (ws.tail ++ [scheduleWord ws]) (round v k (ws.headD 0))

/-- Absorb one block of sixteen words. -/
def compress (v : Vars) (block : List Nat) : Vars :=
  let r := rounds roundConstants block v
  ⟨word (v.a + r.a), word (v.b + r.b), word (v.c + r.c), word (v.d + r.d),
    word (v.e + r.e), word (v.f + r.f), word (v.g + r.g), word (v.h + r.h)⟩

/-! ## §3. Padding and the digest. -/

/-- `n` as `k` bytes, most significant first. -/
def bytesOf (n : Nat) : Nat → List Nat
  | 0 => []
  | k + 1 => (n >>> (8 * k)) % 256 :: bytesOf n k

/-- The message with the bit 1, zeros up to 56 modulo 64 and its length. -/
def pad (bytes : List Nat) : List Nat :=
  bytes ++ 0x80 :: List.replicate ((119 - bytes.length % 64) % 64) 0
    ++ bytesOf (8 * bytes.length) 8

/-- Bytes as big-endian words. -/
def words : List Nat → List Nat
  | a :: b :: c :: d :: rest => (a <<< 24 ||| b <<< 16 ||| c <<< 8 ||| d) :: words rest
  | _ => []

/-- Absorb `n` blocks. -/
def absorb : Nat → List Nat → Vars → Vars
  | 0, _, v => v
  | n + 1, ws, v => absorb n (ws.drop 16) (compress v (ws.take 16))

/-- The digest as bytes. -/
def digest (bytes : List Nat) : List Nat :=
  let ws := words (pad bytes)
  let v := absorb (ws.length / 16) ws initial
  [v.a, v.b, v.c, v.d, v.e, v.f, v.g, v.h].flatMap (fun w => bytesOf w 4)

/-- The UTF-8 encoding of one character. -/
def utf8Bytes (c : Char) : List Nat :=
  let n := c.toNat
  if n < 0x80 then [n]
  else if n < 0x800 then [0xc0 ||| n >>> 6, 0x80 ||| n % 64]
  else if n < 0x10000 then [0xe0 ||| n >>> 12, 0x80 ||| (n >>> 6) % 64, 0x80 ||| n % 64]
  else [0xf0 ||| n >>> 18, 0x80 ||| (n >>> 12) % 64, 0x80 ||| (n >>> 6) % 64, 0x80 ||| n % 64]

/-- `s.encode("utf-8")`. -/
def encode (s : String) : List Nat := s.toList.flatMap utf8Bytes

/-- Two lower-case hexadecimal digits a byte. -/
def hex (bytes : List Nat) : String :=
  String.ofList (bytes.flatMap (fun b => [Nat.digitChar (b / 16), Nat.digitChar (b % 16)]))

/-- `hashlib.sha256(bytes).hexdigest()`. -/
def hexdigest (bytes : List Nat) : String := hex (digest bytes)

example : hexdigest (encode "abc") =
    "ba7816bf8f01cfea414140de5dae2223b00361a396177a9cb410ff61f20015ad" := by decide +kernel

theorem hexdigest_ne_empty (bytes : List Nat) : hexdigest bytes ≠ "" := by
  intro h
  have hlist := congrArg String.toList h
  simp [hexdigest, hex, digest, bytesOf] at hlist

/-! ## §4. Keyed digests. -/

/-- A key as one block of 64 bytes; a longer one is digested first. -/
def keyBlock (key : List Nat) : List Nat :=
  let key := if key.length > 64 then digest key else key
  key ++ List.replicate (64 - key.length) 0

/-- `hmac.new(key, bytes, sha256).hexdigest()`. -/
def hmacHexdigest (key bytes : List Nat) : String :=
  let inner := digest ((keyBlock key).map (· ^^^ 0x36) ++ bytes)
  hexdigest ((keyBlock key).map (· ^^^ 0x5c) ++ inner)

end Hmn.Framework.Sha256
