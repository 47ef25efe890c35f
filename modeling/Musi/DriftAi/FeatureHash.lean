import Musi.Js.Text

namespace Musi.DriftAi
open Musi.Js
set_option autoImplicit true

/-- The 32-bit FNV-1a hash of the code units. -/
def hashFeature32 (value : JsString) : UInt32 :=
  value.foldl (fun hash c => (hash ^^^ UInt32.ofNat c.toNat) * 16777619) 2166136261

/-- The digit of a number below 36. -/
def digit36 (n : Nat) : UInt16 := UInt16.ofNat (if n < 10 then 0x30 + n else 0x57 + n)

/-- Number.prototype.toString(36), by at most as many divisions. -/
def toString36 : Nat → Nat → JsString
  | 0, _ => []
  | fuel + 1, n => if n < 36 then [digit36 n] else toString36 fuel (n / 36) ++ [digit36 (n % 36)]

def hashFeature (value : JsString) : JsString :=
  let hash := (hashFeature32 value).toNat
  toString36 7 hash

example : hashFeature32 (js "a") = 0xE40C292C := by decide +kernel

end Musi.DriftAi
