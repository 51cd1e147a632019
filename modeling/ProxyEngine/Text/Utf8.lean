/-!
Decoding of UTF-8 byte strings. `first?` reads one character or says how many
leading bytes form a maximal invalid part; strict and lossy decoding are two
foldings of it. A C string ends before its first zero byte.
-/

namespace ProxyEngine.Utf8

inductive Front where
  | char (c : Char) (width : Nat)
  | invalid (width : Nat)

def isTail (b : UInt8) : Bool :=
  0x80 ≤ b && b ≤ 0xBF

/-- Number of tail bytes announced by a first byte and the bounds on the byte
after it, which exclude overlong forms, surrogates and values above U+10FFFF. -/
def shape? (b : UInt8) : Option (Nat × UInt8 × UInt8) :=
  if 0xC2 ≤ b && b ≤ 0xDF then some (1, 0x80, 0xBF)
  else if b = 0xE0 then some (2, 0xA0, 0xBF)
  else if b = 0xED then some (2, 0x80, 0x9F)
  else if 0xE1 ≤ b && b ≤ 0xEF then some (2, 0x80, 0xBF)
  else if b = 0xF0 then some (3, 0x90, 0xBF)
  else if 0xF1 ≤ b && b ≤ 0xF3 then some (3, 0x80, 0xBF)
  else if b = 0xF4 then some (3, 0x80, 0x8F)
  else none

def leadBits (tails : Nat) (b : UInt8) : Nat :=
  b.toNat % Nat.pow 2 (6 - tails)

def readTails (width code : Nat) : (tails : Nat) → List UInt8 → Front
  | 0, _ => .char (.ofNat code) width
  | tails + 1, b :: rest =>
    if isTail b then readTails (width + 1) (code * 64 + b.toNat % 64) tails rest
    else .invalid width
  | _ + 1, [] => .invalid width

def first? : List UInt8 → Option Front
  | [] => none
  | b :: rest =>
    if b < 0x80 then some (.char (.ofNat b.toNat) 1)
    else match shape? b, rest with
      | some (tails + 1, low, high), b₂ :: rest =>
        if low ≤ b₂ && b₂ ≤ high then
          some (readTails 2 (leadBits (tails + 1) b * 64 + b₂.toNat % 64) tails rest)
        else some (.invalid 1)
      | _, _ => some (.invalid 1)

def strictAux : (budget : Nat) → List UInt8 → Option (List Char)
  | 0, _ => some []
  | budget + 1, bytes =>
    match first? bytes with
    | none => some []
    | some (.char c width) => (strictAux budget (bytes.drop width)).map (c :: ·)
    | some (.invalid _) => none

def decode? (bytes : List UInt8) : Option String :=
  (strictAux bytes.length bytes).map .ofList

def lossyAux : (budget : Nat) → List UInt8 → List Char
  | 0, _ => []
  | budget + 1, bytes =>
    match first? bytes with
    | none => []
    | some (.char c width) => c :: lossyAux budget (bytes.drop width)
    | some (.invalid width) => '\uFFFD' :: lossyAux budget (bytes.drop width)

/-- Total decoding: each maximal invalid part reads as U+FFFD. -/
def decodeLossy (bytes : List UInt8) : String :=
  .ofList (lossyAux bytes.length bytes)

def cString (bytes : List UInt8) : List UInt8 :=
  bytes.takeWhile (· ≠ 0)

@[simp] theorem decode?_nil : decode? [] = some "" := rfl

@[simp] theorem decodeLossy_nil : decodeLossy [] = "" := rfl

end ProxyEngine.Utf8
