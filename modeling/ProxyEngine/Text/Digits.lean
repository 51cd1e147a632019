/-!
Numerals: the value of a run of decimal digits, hexadecimal text of a fixed
width, and bytes as pairs of hexadecimal digits.
-/

namespace ProxyEngine.Digits

def value (ds : List Char) : Nat :=
  ds.foldl (fun n c => n * 10 + (c.toNat - '0'.toNat)) 0

def hex (width n : Nat) : String :=
  let ds := Nat.toDigits 16 n
  "".pushn '0' (width - ds.length) ++ .ofList ds

def isHexDigit (c : Char) : Bool :=
  c.isDigit || 'a' ≤ c && c ≤ 'f' || 'A' ≤ c && c ≤ 'F'

def hexDigitValue (c : Char) : Nat :=
  if c.isDigit then c.toNat - '0'.toNat
  else if 'a' ≤ c then c.toNat - 'a'.toNat + 10
  else c.toNat - 'A'.toNat + 10

def hexValue (ds : List Char) : Nat :=
  ds.foldl (fun n c => n * 16 + hexDigitValue c) 0

def hexOfBytes (bs : List UInt8) : String :=
  String.join (bs.map fun b => hex 2 b.toNat)

/-- The bytes written by pairs of digits; a last digit without partner is left out. -/
def bytesOfHex : List Char → List UInt8
  | a :: b :: rest => .ofNat (hexValue [a, b]) :: bytesOfHex rest
  | _ => []

@[simp] theorem value_nil : value [] = 0 := rfl

@[simp] theorem hexValue_nil : hexValue [] = 0 := rfl

end ProxyEngine.Digits
