import ProxyEngine.Text.Digits
import ProxyEngine.Value

/-!
Property keys: an array index, an interned string or a symbol, with a void key
that stands for "no key" in places that cannot be empty. A string that spells
an array index always becomes the index, so that one property has one key.
-/

namespace ProxyEngine

inductive PropertyKey where
  | void
  | index (i : UInt32)
  | atom (a : Atom)
  | symbol (s : SymbolId)
  deriving DecidableEq, Inhabited

namespace PropertyKey

/-- The 64-bit form: the kind in the upper half, the payload in the lower. -/
def bits : PropertyKey → Nat
  | void => 0
  | index i => 0x100000000 + i.toNat
  | atom a => 0x200000000 + a.index.toNat
  | symbol s => 0x300000000 + s.index.toNat

def isVoid : PropertyKey → Bool
  | void => true
  | _ => false

def isIndex : PropertyKey → Bool
  | index _ => true
  | _ => false

def isAtom : PropertyKey → Bool
  | atom _ => true
  | _ => false

def isSymbol : PropertyKey → Bool
  | symbol _ => true
  | _ => false

def asIndex? : PropertyKey → Option UInt32
  | index i => some i
  | _ => none

def asAtom? : PropertyKey → Option Atom
  | atom a => some a
  | _ => none

def asSymbol? : PropertyKey → Option SymbolId
  | symbol s => some s
  | _ => none

def debugText : PropertyKey → String
  | void => "Void"
  | index i => "Index(" ++ toString i.toNat ++ ")"
  | atom a => "Atom(" ++ toString a.index.toNat ++ ")"
  | symbol s => "Symbol(" ++ toString s.index.toNat ++ ")"

/-- The index a text spells: decimal, without leading zeros, below `2 ^ 32 - 1`. -/
def parseIndex? (text : String) : Option UInt32 :=
  let ds := text.toList
  if ds.isEmpty || ds.head? == some '0' && ds.length > 1 then none
  else if !ds.all Char.isDigit then none
  else
    let n := Digits.value ds
    if n < 0xFFFFFFFF then some (.ofNat n) else none

end PropertyKey

structure KeyVector where
  keys : List PropertyKey := []
  deriving DecidableEq, Inhabited

namespace KeyVector

def push (v : KeyVector) (k : PropertyKey) : KeyVector :=
  ⟨v.keys ++ [k]⟩

def append (v : KeyVector) (ks : List PropertyKey) : KeyVector :=
  ⟨v.keys ++ ks⟩

def size (v : KeyVector) : Nat :=
  v.keys.length

@[simp] theorem keys_push (v : KeyVector) (k : PropertyKey) :
    (v.push k).keys = v.keys ++ [k] := rfl

@[simp] theorem keys_append (v : KeyVector) (ks : List PropertyKey) :
    (v.append ks).keys = v.keys ++ ks := rfl

end KeyVector

end ProxyEngine
