import ProxyEngine.Value

/-!
Property descriptors as they cross the flat boundary: every field has content
and, next to it, a flag that says whether the field is present. The content of
an absent field is ignored by every rule here but survives being passed along.
-/

namespace ProxyEngine

structure Attributes where
  writable : Bool := false
  enumerable : Bool := false
  configurable : Bool := false
  deriving DecidableEq, Inhabited

namespace Attributes

def data : Attributes := ⟨true, true, true⟩
def frozen : Attributes := ⟨false, false, false⟩
def hidden : Attributes := ⟨true, false, true⟩

/-- Attributes from boundary flags: 1 makes a property enumerable, 2 read-only and
4 permanent. -/
def ofFlags (flags : Nat) : Attributes :=
  { writable := flags / 2 % 2 == 0
    enumerable := flags % 2 == 1
    configurable := flags / 4 % 2 == 0 }

end Attributes

structure Descriptor where
  hasConfigurable : Bool := false
  configurable : Bool := false
  hasEnumerable : Bool := false
  enumerable : Bool := false
  hasWritable : Bool := false
  writable : Bool := false
  hasValue : Bool := false
  hasGetter : Bool := false
  hasSetter : Bool := false
  value : Value := .undefined
  getter : Option ObjectId := none
  setter : Option ObjectId := none
  deriving DecidableEq

namespace Descriptor

instance : Inhabited Descriptor := ⟨{}⟩

def ofData (v : Value) (attrs : Attributes := .data) : Descriptor :=
  { hasConfigurable := true, configurable := attrs.configurable
    hasEnumerable := true, enumerable := attrs.enumerable
    hasWritable := true, writable := attrs.writable
    hasValue := true, value := v }

/-- Complete accessor descriptor; it has no `writable` field. -/
def ofAccessor (getter setter : Option ObjectId) (attrs : Attributes) : Descriptor :=
  { hasConfigurable := true, configurable := attrs.configurable
    hasEnumerable := true, enumerable := attrs.enumerable
    hasGetter := true, getter := getter
    hasSetter := true, setter := setter }

def valueOnly (v : Value) : Descriptor :=
  { hasValue := true, value := v }

def isAccessor (d : Descriptor) : Bool := d.hasGetter || d.hasSetter
def isData (d : Descriptor) : Bool := d.hasValue || d.hasWritable
def isGeneric (d : Descriptor) : Bool := !d.isAccessor && !d.isData

def isComplete (d : Descriptor) : Bool :=
  let common := d.hasConfigurable && d.hasEnumerable
  if d.isAccessor then common && d.hasGetter && d.hasSetter
  else common && d.hasValue && d.hasWritable

def isWritable (d : Descriptor) : Bool := d.hasWritable && d.writable
def isEnumerable (d : Descriptor) : Bool := d.hasEnumerable && d.enumerable
def isConfigurable (d : Descriptor) : Bool := d.hasConfigurable && d.configurable

def attributes (d : Descriptor) : Attributes :=
  ⟨d.isWritable, d.isEnumerable, d.isConfigurable⟩

def valueOrUndefined (d : Descriptor) : Value :=
  if d.hasValue then d.value else .undefined

def getter? (d : Descriptor) : Option ObjectId :=
  if d.hasGetter then d.getter else none

def setter? (d : Descriptor) : Option ObjectId :=
  if d.hasSetter then d.setter else none

@[simp] theorem isAccessor_ofData (v : Value) (a : Attributes) :
    (ofData v a).isAccessor = false := rfl

@[simp] theorem isAccessor_ofAccessor (g s : Option ObjectId) (a : Attributes) :
    (ofAccessor g s a).isAccessor = true := rfl

@[simp] theorem isComplete_ofData (v : Value) (a : Attributes) :
    (ofData v a).isComplete = true := rfl

@[simp] theorem isComplete_ofAccessor (g s : Option ObjectId) (a : Attributes) :
    (ofAccessor g s a).isComplete = true := rfl

@[simp] theorem attributes_ofData (v : Value) (a : Attributes) :
    (ofData v a).attributes = a := rfl

end Descriptor

end ProxyEngine
