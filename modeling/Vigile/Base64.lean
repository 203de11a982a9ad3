import Mathlib.Init

/-! Base64 as Go decodes it: line ends are skipped anywhere, and the bits that are left over
in the last group are not looked at. -/
namespace Base64

/-- Both alphabets agree but for the last two characters. -/
def sextet (last : Char × Char) (c : Char) : Option Nat :=
  if 'A' ≤ c ∧ c ≤ 'Z' then some (c.toNat - 'A'.toNat)
  else if 'a' ≤ c ∧ c ≤ 'z' then some (c.toNat - 'a'.toNat + 26)
  else if '0' ≤ c ∧ c ≤ '9' then some (c.toNat - '0'.toNat + 52)
  else if c = last.1 then some 62
  else if c = last.2 then some 63
  else none

def twoBytes (last : Char × Char) (a b c : Char) : Option (List UInt8) := do
  let a ← sextet last a
  let b ← sextet last b
  let c ← sextet last c
  return [UInt8.ofNat (a * 4 + b / 16),UInt8.ofNat (b % 16 * 16 + c / 4)]

def oneByte (last : Char × Char) (a b : Char) : Option (List UInt8) := do
  let a ← sextet last a
  let b ← sextet last b
  return [UInt8.ofNat (a * 4 + b / 16)]

def groups (last : Char × Char) (padded : Bool) : List Char → Option (List UInt8)
  | [] => some []
  | [a,b] => if padded then none else oneByte last a b
  | [a,b,c] => if padded then none else twoBytes last a b c
  | [a,b,'=','='] => if padded then oneByte last a b else none
  | [a,b,c,'='] => if padded then twoBytes last a b c else none
  | a :: b :: c :: d :: rest => do
    let front ← twoBytes last a b c
    let c ← sextet last c
    let d ← sextet last d
    let bytes ← groups last padded rest
    return front ++ UInt8.ofNat (c % 4 * 64 + d) :: bytes
  | _ => none

def unbroken (text : String) : List Char := text.toList.filter fun c => c ≠ '\n' && c ≠ '\r'

def decodeRawURL (text : String) : Option (List UInt8) := groups ('-','_') false (unbroken text)

def decodeStd (text : String) : Option (List UInt8) := groups ('+','/') true (unbroken text)

example : decodeRawURL "-_8" = some [0xfb,0xff] := by decide
example : decodeStd "aGk=" = some [0x68,0x69] := by decide

end Base64
