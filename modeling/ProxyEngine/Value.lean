import ProxyEngine.Atom
import ProxyEngine.Number.Decimal
import ProxyEngine.ObjectId
import ProxyEngine.Text.Digits

/-!
Values as 64-bit words. Doubles are stored as themselves except NaN, which has
one word of its own; every other kind lives in the space of quiet NaNs and is
told apart by the upper 16 or 32 bits. All words are admitted, so a word read
from outside may have no kind at all.
-/

namespace ProxyEngine

structure Value where
  bits : UInt64
  deriving DecidableEq

namespace Value

def int32Tag : Nat := 0x7FF80001

def stringTag : Nat := 0x7FF9
def symbolTag : Nat := 0x7FFB
def objectTag : Nat := 0x7FFC

def undefined : Value := ⟨0x7FF8000000000000⟩
def null : Value := ⟨0x7FF8000000000001⟩
def nan : Value := ⟨0x7FFA000000000000⟩

instance : Inhabited Value := ⟨undefined⟩

def boolean (b : Bool) : Value :=
  if b then ⟨0x7FF8000000000002⟩ else ⟨0x7FF8000000000003⟩

def tagged16 (tag payload : Nat) : Value :=
  ⟨.ofNat (tag * 0x1000000000000 + payload)⟩

def int32 (n : Int32) : Value :=
  ⟨.ofNat (int32Tag * 0x100000000 + n.toUInt32.toNat)⟩

/-- A double as a value; every NaN becomes the one canonical NaN. -/
def number (x : Binary64) : Value :=
  if x.isNaN then nan else ⟨x.bits⟩

def string (a : Atom) : Value :=
  tagged16 stringTag a.index.toNat

def symbol (s : SymbolId) : Value :=
  tagged16 symbolTag s.index.toNat

def object (o : ObjectId) : Value :=
  tagged16 objectTag o.raw

def objectOrNull : Option ObjectId → Value
  | some o => object o
  | none => null

def upper16 (v : Value) : Nat :=
  v.bits.toNat / 0x1000000000000

def upper32 (v : Value) : Nat :=
  v.bits.toNat / 0x100000000

def payload (v : Value) : Nat :=
  v.bits.toNat % 0x100000000

/-- Not a quiet NaN word, so the word is a double as it stands. -/
def isDouble (v : Value) : Bool :=
  v.bits.toNat / 0x8000000000000 % 0x1000 != 0xFFF

def isUndefined (v : Value) : Bool := v == undefined
def isNull (v : Value) : Bool := v == null
def isNullish (v : Value) : Bool := v.isNull || v.isUndefined
def isBoolean (v : Value) : Bool := v == boolean true || v == boolean false
def isInt32 (v : Value) : Bool := v.upper32 == int32Tag
def isNumber (v : Value) : Bool := v.isDouble || v == nan || v.isInt32
def isString (v : Value) : Bool := v.upper16 == stringTag
def isSymbol (v : Value) : Bool := v.upper16 == symbolTag
def isObject (v : Value) : Bool := v.upper16 == objectTag

def kinds (v : Value) : List String :=
  ([("undefined", v.isUndefined), ("null", v.isNull), ("nullish", v.isNullish),
    ("boolean", v.isBoolean), ("number", v.isNumber), ("string", v.isString),
    ("symbol", v.isSymbol), ("object", v.isObject)].filter (·.2)).map (·.1)

def asBoolean? (v : Value) : Option Bool :=
  if v == boolean true then some true
  else if v == boolean false then some false
  else none

def asInt32? (v : Value) : Option Int32 :=
  if v.isInt32 then some (UInt32.ofNat v.payload).toInt32 else none

def asNumber? (v : Value) : Option Binary64 :=
  match v.asInt32? with
  | some n => some (.ofInt32 n)
  | none =>
    if v == nan then some ⟨0x7FF8000000000000⟩
    else if v.isDouble then some ⟨v.bits⟩
    else none

def asString? (v : Value) : Option Atom :=
  if v.isString then some ⟨.ofNat v.payload⟩ else none

def asSymbol? (v : Value) : Option SymbolId :=
  if v.isSymbol then some ⟨.ofNat v.payload⟩ else none

/-- The handle of an object word; `none` also for an object word without a slot. -/
def asObject? (v : Value) : Option ObjectId :=
  if v.isObject then ObjectId.ofRaw? v.payload else none

/-- Equality of values as property redefinition sees it: all NaNs are one number,
the two zeros differ, and an integer equals the double of the same number. -/
def same (a b : Value) : Bool :=
  match a.asNumber?, b.asNumber? with
  | some x, some y => x.isNaN && y.isNaN || x == y
  | _, _ => a == b

def debugText (v : Value) : String :=
  if v.isUndefined then "undefined"
  else if v.isNull then "null"
  else if let some b := v.asBoolean? then toString b
  else if let some n := v.asInt32? then toString n.toInt
  else if let some x := v.asNumber? then x.debugText
  else if let some a := v.asString? then "String(" ++ toString a.index.toNat ++ ")"
  else if let some s := v.asSymbol? then "Symbol(" ++ toString s.index.toNat ++ ")"
  else if let some o := v.asObject? then o.debugText
  else "Value(0x" ++ Digits.hex 16 v.bits.toNat ++ ")"

@[simp] theorem same_refl (v : Value) : v.same v := by
  unfold same
  cases v.asNumber? <;> simp

theorem same_iff {a b : Value} :
    a.same b ↔ a = b ∨
      ∃ x y, a.asNumber? = some x ∧ b.asNumber? = some y ∧ (x.isNaN ∧ y.isNaN ∨ x = y) := by
  unfold same
  cases number : a.asNumber? <;> cases number' : b.asNumber? <;> simp
  intro same
  rw [same, number', Option.some.injEq] at number
  exact .inr number.symm

theorem same_trans {a b c : Value} (first : a.same b) (second : b.same c) : a.same c := by
  rcases same_iff.1 first with rfl | ⟨x, y, ax, by', numbers⟩
  · exact second
  · rcases same_iff.1 second with rfl | ⟨y', z, by'', cz, numbers'⟩
    · exact first
    · obtain rfl := Option.some.inj (by'.symm.trans by'')
      refine same_iff.2 (.inr ⟨x, z, ax, cz, ?_⟩)
      rcases numbers with ⟨nan, nan'⟩ | rfl
      · rcases numbers' with ⟨_, nan''⟩ | rfl
        · exact .inl ⟨nan, nan''⟩
        · exact .inl ⟨nan, nan'⟩
      · exact numbers'

end Value

end ProxyEngine
