import Musi.LintRatchet.Kernel.CodepointCompare
import Musi.LintRatchet.Kernel.Types

namespace Musi.LintRatchet
open Musi.Js
set_option autoImplicit true

/-! ## SHA-256 of a string -/

/-- The UTF-8 bytes of a code point; a lone surrogate is written as the replacement character. -/
def utf8 (codePoint : Nat) : List UInt8 :=
  let c := if 0xD800 ≤ codePoint ∧ codePoint ≤ 0xDFFF then 0xFFFD else codePoint
  let continuation (shift : Nat) : UInt8 := UInt8.ofNat (0x80 + c / shift % 64)
  if c < 0x80 then [UInt8.ofNat c]
  else if c < 0x800 then [UInt8.ofNat (0xC0 + c / 64), continuation 1]
  else if c < 0x10000 then [UInt8.ofNat (0xE0 + c / 4096), continuation 64, continuation 1]
  else [UInt8.ofNat (0xF0 + c / 262144), continuation 4096, continuation 64, continuation 1]

def roundConstants : List UInt32 :=
  [0x428a2f98, 0x71374491, 0xb5c0fbcf, 0xe9b5dba5, 0x3956c25b, 0x59f111f1, 0x923f82a4, 0xab1c5ed5,
   0xd807aa98, 0x12835b01, 0x243185be, 0x550c7dc3, 0x72be5d74, 0x80deb1fe, 0x9bdc06a7, 0xc19bf174,
   0xe49b69c1, 0xefbe4786, 0x0fc19dc6, 0x240ca1cc, 0x2de92c6f, 0x4a7484aa, 0x5cb0a9dc, 0x76f988da,
   0x983e5152, 0xa831c66d, 0xb00327c8, 0xbf597fc7, 0xc6e00bf3, 0xd5a79147, 0x06ca6351, 0x14292967,
   0x27b70a85, 0x2e1b2138, 0x4d2c6dfc, 0x53380d13, 0x650a7354, 0x766a0abb, 0x81c2c92e, 0x92722c85,
   0xa2bfe8a1, 0xa81a664b, 0xc24b8b70, 0xc76c51a3, 0xd192e819, 0xd6990624, 0xf40e3585, 0x106aa070,
   0x19a4c116, 0x1e376c08, 0x2748774c, 0x34b0bcb5, 0x391c0cb3, 0x4ed8aa4a, 0x5b9cca4f, 0x682e6ff3,
   0x748f82ee, 0x78a5636f, 0x84c87814, 0x8cc70208, 0x90befffa, 0xa4506ceb, 0xbef9a3f7, 0xc67178f2]

structure HashState where
  a : UInt32
  b : UInt32
  c : UInt32
  d : UInt32
  e : UInt32
  f : UInt32
  g : UInt32
  h : UInt32

def initialHash : HashState :=
  ⟨0x6a09e667, 0xbb67ae85, 0x3c6ef372, 0xa54ff53a, 0x510e527f, 0x9b05688c, 0x1f83d9ab, 0x5be0cd19⟩

def rotateRight (x : UInt32) (n : UInt32) : UInt32 := (x >>> n) ||| (x <<< (32 - n))

/-- The message schedule, newest word first. -/
def extendSchedule : Nat → List UInt32 → List UInt32
  | 0, w => w
  | n + 1, w =>
    let w2 := w.getD 1 0
    let w15 := w.getD 14 0
    let s0 := rotateRight w15 7 ^^^ rotateRight w15 18 ^^^ (w15 >>> 3)
    let s1 := rotateRight w2 17 ^^^ rotateRight w2 19 ^^^ (w2 >>> 10)
    extendSchedule n ((w.getD 15 0 + s0 + w.getD 6 0 + s1) :: w)

def hashRound (s : HashState) (kw : UInt32 × UInt32) : HashState :=
  let s1 := rotateRight s.e 6 ^^^ rotateRight s.e 11 ^^^ rotateRight s.e 25
  let ch := (s.e &&& s.f) ^^^ (s.e ^^^ 0xFFFFFFFF) &&& s.g
  let t1 := s.h + s1 + ch + kw.1 + kw.2
  let s0 := rotateRight s.a 2 ^^^ rotateRight s.a 13 ^^^ rotateRight s.a 22
  let maj := (s.a &&& s.b) ^^^ (s.a &&& s.c) ^^^ (s.b &&& s.c)
  { a := t1 + (s0 + maj), b := s.a, c := s.b, d := s.c, e := s.d + t1, f := s.e, g := s.f, h := s.g }

def hashBlock (s : HashState) (block : List UInt32) : HashState :=
  let words := (extendSchedule 48 block.reverse).reverse
  let t := (roundConstants.zip words).foldl hashRound s
  { a := s.a + t.a, b := s.b + t.b, c := s.c + t.c, d := s.d + t.d, e := s.e + t.e, f := s.f + t.f,
    g := s.g + t.g, h := s.h + t.h }

def bigEndian (bytes : List UInt8) : UInt32 :=
  UInt32.ofNat (bytes.foldl (fun n b => 256 * n + b.toNat) 0)

/-- The bytes with a one bit, zeros up to a whole block and the length in bits. -/
def paddedBytes (bytes : List UInt8) : List UInt8 :=
  let zeros := (119 - bytes.length % 64) % 64
  let bits := 8 * bytes.length
  bytes ++ [0x80] ++ List.replicate zeros 0 ++
    ((List.range 8).map fun i => UInt8.ofNat (bits / 256 ^ (7 - i)))

/-- As many chunks of a list as asked for. -/
def chunks {α : Type} (size : Nat) : Nat → List α → List (List α)
  | 0, _ => []
  | n + 1, l => l.take size :: chunks size n (l.drop size)

def hexWord (w : UInt32) : JsString :=
  (List.range 8).map fun i => hexDigit (w.toNat / 16 ^ (7 - i) % 16)

/-- The lowercase hexadecimal SHA-256 digest of a string's UTF-8 bytes. -/
def sha256Hex (s : JsString) : JsString :=
  let bytes := paddedBytes ((codePoints s).flatMap utf8)
  let words := (chunks 4 (bytes.length / 4) bytes).map bigEndian
  let d := (chunks 16 (words.length / 16) words).foldl hashBlock initialHash
  [d.a, d.b, d.c, d.d, d.e, d.f, d.g, d.h].flatMap hexWord

theorem sha256Hex_length (s : JsString) : (sha256Hex s).length = 64 := by
  simp [sha256Hex, hexWord]

theorem hexDigit_hex : ∀ n < 16, (isDigit (hexDigit n) ||
    (0x61 ≤ hexDigit n && hexDigit n ≤ 0x66)) = true := by decide

theorem sha256Hex_hex (s : JsString) : ∀ c ∈ sha256Hex s,
    (isDigit c || (0x61 ≤ c && c ≤ 0x66)) = true := by
  intro c hc
  obtain ⟨w, -, hw⟩ := List.mem_flatMap.1 hc
  obtain ⟨i, -, rfl⟩ := List.mem_map.1 hw
  exact hexDigit_hex _ (Nat.mod_lt _ (by omega))

/-! ## The host of plain paths -/

/-- A host for strings without surprises: locale order as code unit order, globs without special
characters, absolute POSIX paths without dot segments. -/
instance posixHost : Host where
  localeCompare := compareCodeUnits
  sha256 := sha256Hex
  minimatch path pattern := path = pattern
  isAbsolute path := startsWith path (js "/")
  relative root path :=
    if startsWith path (root ++ js "/") then path.drop (root.length + 1) else js "../" ++ path
  jsonSyntaxError _ := js "Unexpected token"
  localeCompare_consistent := compareCodeUnits_strict.toConsistentComparator
  sha256_length := sha256Hex_length
  sha256_hex := sha256Hex_hex

end Musi.LintRatchet
