import ProxyEngine.Text.Digits

/-!
The JSON documents that options are read from. Reading keeps numbers and
strings as the characters they are written with: a member that nobody asks for
only has to be well formed, and meaning is given to the others afterwards.
`unescape?` gives the text of a written string.
-/

namespace ProxyEngine

/-- A document; strings are held as written, without their quotes. -/
inductive Document where
  | null
  | bool (b : Bool)
  | number (written : List Char)
  | string (written : List Char)
  | array (items : List Document)
  | object (members : List (List Char × Document))
  deriving Inhabited

namespace Document

def isBlank (c : Char) : Bool :=
  c == ' ' || c == '\n' || c == '\t' || c == '\r'

def skipBlanks (cs : List Char) : List Char :=
  cs.dropWhile isBlank

def shortEscape? : Char → Option Char
  | '"' => some '"'
  | '\\' => some '\\'
  | '/' => some '/'
  | 'b' => some '\x08'
  | 'f' => some '\x0c'
  | 'n' => some '\n'
  | 'r' => some '\r'
  | 't' => some '\t'
  | _ => none

def isControl (c : Char) : Bool :=
  c.toNat < 0x20

/-- The body of a string after its opening quote, and what follows the closing one.
Escapes are checked for shape only. -/
def scanString : List Char → Option (List Char × List Char)
  | [] => none
  | '"' :: rest => some ([], rest)
  | '\\' :: 'u' :: a :: b :: c :: d :: rest =>
    if [a, b, c, d].all Digits.isHexDigit then
      (scanString rest).map fun (s, t) => ('\\' :: 'u' :: a :: b :: c :: d :: s, t)
    else none
  | '\\' :: e :: rest =>
    if (shortEscape? e).isSome then (scanString rest).map fun (s, t) => ('\\' :: e :: s, t)
    else none
  | c :: rest =>
    if isControl c || c == '\\' then none
    else (scanString rest).map fun (s, t) => (c :: s, t)

def isHighSurrogate (u : Nat) : Bool := 0xD800 ≤ u && u < 0xDC00
def isLowSurrogate (u : Nat) : Bool := 0xDC00 ≤ u && u < 0xE000

def joinSurrogates (high low : Nat) : Char :=
  .ofNat (0x10000 + (high - 0xD800) * 0x400 + (low - 0xDC00))

def unescape? : List Char → Option (List Char)
  | [] => some []
  | '\\' :: 'u' :: a :: b :: c :: d :: rest =>
    let u := Digits.hexValue [a, b, c, d]
    if isLowSurrogate u then none
    else if isHighSurrogate u then
      match rest with
      | '\\' :: 'u' :: e :: f :: g :: h :: rest =>
        let low := Digits.hexValue [e, f, g, h]
        if isLowSurrogate low then (unescape? rest).map (joinSurrogates u low :: ·) else none
      | _ => none
    else (unescape? rest).map (.ofNat u :: ·)
  | '\\' :: e :: rest =>
    match shortEscape? e with
    | some c => (unescape? rest).map (c :: ·)
    | none => none
  | c :: rest => (unescape? rest).map (c :: ·)

def isNumberChar (c : Char) : Bool :=
  c.isDigit || c == '+' || c == '-' || c == '.' || c == 'e' || c == 'E'

def isDigits (cs : List Char) : Bool :=
  !cs.isEmpty && cs.all Char.isDigit

def isSigned (digits : List Char → Bool) : List Char → Bool
  | '+' :: cs => digits cs
  | '-' :: cs => digits cs
  | cs => digits cs

def isExponentPart : List Char → Bool
  | [] => true
  | c :: cs => (c == 'e' || c == 'E') && isSigned isDigits cs

def isFractionPart : List Char → Bool
  | '.' :: cs => isDigits (cs.takeWhile Char.isDigit) && isExponentPart (cs.dropWhile Char.isDigit)
  | cs => isExponentPart cs

def isPlainInteger (cs : List Char) : Bool :=
  isDigits cs && (cs.length == 1 || cs.head? != some '0')

def isNumber (cs : List Char) : Bool :=
  let cs := if cs.head? == some '-' then cs.drop 1 else cs
  isPlainInteger (cs.takeWhile Char.isDigit) && isFractionPart (cs.dropWhile Char.isDigit)

def word? (w : List Char) (d : Document) (cs : List Char) : Option (Document × List Char) :=
  if w.isPrefixOf cs then some (d, cs.drop w.length) else none

mutual

/-- Reads one document after blanks; the budget bounds the nesting of calls. -/
def read : (budget : Nat) → List Char → Option (Document × List Char)
  | 0, _ => none
  | budget + 1, cs =>
    match skipBlanks cs with
    | [] => none
    | '"' :: rest => (scanString rest).map fun (s, t) => (string s, t)
    | '[' :: rest =>
      match skipBlanks rest with
      | ']' :: rest => some (array [], rest)
      | rest => (readItems budget rest).map fun (ds, t) => (array ds, t)
    | '{' :: rest =>
      match skipBlanks rest with
      | '}' :: rest => some (object [], rest)
      | rest => (readMembers budget rest).map fun (ms, t) => (object ms, t)
    | c :: rest =>
      if c == 'n' then word? "null".toList null (c :: rest)
      else if c == 't' then word? "true".toList (bool true) (c :: rest)
      else if c == 'f' then word? "false".toList (bool false) (c :: rest)
      else
        let written := (c :: rest).takeWhile isNumberChar
        if isNumber written then some (number written, (c :: rest).dropWhile isNumberChar)
        else none

def readItems : (budget : Nat) → List Char → Option (List Document × List Char)
  | 0, _ => none
  | budget + 1, cs =>
    match read budget cs with
    | none => none
    | some (d, rest) =>
      match skipBlanks rest with
      | ',' :: rest => (readItems budget rest).map fun (ds, t) => (d :: ds, t)
      | ']' :: rest => some ([d], rest)
      | _ => none

def readMembers : (budget : Nat) → List Char → Option (List (List Char × Document) × List Char)
  | 0, _ => none
  | budget + 1, cs =>
    match skipBlanks cs with
    | '"' :: rest =>
      match scanString rest with
      | none => none
      | some (name, rest) =>
        match skipBlanks rest with
        | ':' :: rest =>
          match read budget rest with
          | none => none
          | some (d, rest) =>
            match skipBlanks rest with
            | ',' :: rest => (readMembers budget rest).map fun (ms, t) => ((name, d) :: ms, t)
            | '}' :: rest => some ([(name, d)], rest)
            | _ => none
        | _ => none
    | _ => none

end

def parse? (text : List Char) : Option Document :=
  match read (2 * text.length + 1) text with
  | some (d, rest) => if (skipBlanks rest).isEmpty then some d else none
  | none => none

end Document

end ProxyEngine
