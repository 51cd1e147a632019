import ProxyEngine.Options.Document
import ProxyEngine.Text.Digits
import ProxyEngine.Text.Utf8

/-!
Tunables of a context and their JSON form. Every field has a default, so a
document lists only what it changes, as an object or as a list of the first
fields. Unknown members are ignored; a known member may occur once and must be
a plain integer in the field's range.
-/

namespace ProxyEngine

structure ContextOptions where
  maxDispatchDepth : UInt32 := 512
  initialHeapCapacity : UInt64 := 256
  gcThreshold : UInt64 := 0
  deriving DecidableEq

inductive OptionsError where
  | config
  | io
  deriving DecidableEq

namespace ContextOptions

instance : Inhabited ContextOptions := ⟨{}⟩

inductive Field where
  | maxDispatchDepth
  | initialHeapCapacity
  | gcThreshold
  deriving DecidableEq

namespace Field

def all : List Field :=
  [maxDispatchDepth, initialHeapCapacity, gcThreshold]

def name : Field → String
  | maxDispatchDepth => "maxDispatchDepth"
  | initialHeapCapacity => "initialHeapCapacity"
  | gcThreshold => "gcThreshold"

def limit : Field → Nat
  | maxDispatchDepth => 0x100000000
  | _ => 0x10000000000000000

def ofName? (text : List Char) : Option Field :=
  all.find? (·.name.toList == text)

end Field

def set (o : ContextOptions) : Field → Nat → ContextOptions
  | .maxDispatchDepth, n => { o with maxDispatchDepth := .ofNat n }
  | .initialHeapCapacity, n => { o with initialHeapCapacity := .ofNat n }
  | .gcThreshold, n => { o with gcThreshold := .ofNat n }

def get (o : ContextOptions) : Field → Nat
  | .maxDispatchDepth => o.maxDispatchDepth.toNat
  | .initialHeapCapacity => o.initialHeapCapacity.toNat
  | .gcThreshold => o.gcThreshold.toNat

def assign? (o : ContextOptions) (f : Field) : Document → Option ContextOptions
  | .number written =>
    if Document.isPlainInteger written && Digits.value written < f.limit then
      some (o.set f (Digits.value written))
    else none
  | _ => none

def ofMembers? (o : ContextOptions) (seen : List Field) :
    List (List Char × Document) → Option ContextOptions
  | [] => some o
  | (written, d) :: rest =>
    match Document.unescape? written with
    | none => none
    | some name =>
      match Field.ofName? name with
      | none => ofMembers? o seen rest
      | some f =>
        if f ∈ seen then none
        else match o.assign? f d with
          | some o => ofMembers? o (f :: seen) rest
          | none => none

def ofItems? (o : ContextOptions) : List Field → List Document → Option ContextOptions
  | _, [] => some o
  | f :: fields, d :: rest =>
    match o.assign? f d with
    | some o => ofItems? o fields rest
    | none => none
  | [], _ :: _ => none

def ofDocument? : Document → Option ContextOptions
  | .object members => ofMembers? {} [] members
  | .array items => ofItems? {} Field.all items
  | _ => none

def parse (text : String) : Except OptionsError ContextOptions :=
  match (Document.parse? text.toList).bind ofDocument? with
  | some o => .ok o
  | none => .error .config

def load : Option (List UInt8) → Except OptionsError ContextOptions
  | none => .error .io
  | some bytes =>
    match Utf8.decode? bytes with
    | some text => parse text
    | none => .error .io

def render (o : ContextOptions) : String :=
  let member (f : Field) := "\"" ++ f.name ++ "\":" ++ toString (o.get f)
  "\x7b" ++ ",".intercalate (Field.all.map member) ++ "\x7d"

@[simp] theorem Field.ofName?_name (f : Field) : Field.ofName? f.name.toList = some f := by
  cases f <;> decide

end ContextOptions

end ProxyEngine
