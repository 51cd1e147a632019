import ProxyEngine.Descriptor
import ProxyEngine.Key
import ProxyEngine.Outcome

/-!
Stored properties and their redefinition. A stored property is complete: it has
either a value or a pair of functions, and all its attributes. `redefine` first
checks a partial descriptor against a non-configurable property and then merges
it; a change of kind keeps only the shared attributes.
-/

namespace ProxyEngine

inductive Property where
  | data (value : Value) (attrs : Attributes)
  | accessor (getter setter : Option ObjectId) (attrs : Attributes)
  deriving DecidableEq, Inhabited

namespace Property

def attributes : Property → Attributes
  | data _ attrs => attrs
  | accessor _ _ attrs => attrs

def isAccessor : Property → Bool
  | data .. => false
  | accessor .. => true

def toDescriptor : Property → Descriptor
  | data value attrs => .ofData value attrs
  | accessor getter setter attrs => .ofAccessor getter setter attrs

def ofDescriptor (d : Descriptor) : Property :=
  if d.isAccessor then accessor d.getter? d.setter? d.attributes
  else data d.valueOrUndefined d.attributes

def dataPart : Property → Value × Bool
  | data value attrs => (value, attrs.writable)
  | accessor .. => (.undefined, false)

def accessorPart : Property → Option ObjectId × Option ObjectId
  | data .. => (none, none)
  | accessor getter setter _ => (getter, setter)

/-- The present fields of `d` over the fields of the current property. -/
def merge (current : Property) (d : Descriptor) : Property :=
  let attrs := current.attributes
  let configurable := if d.hasConfigurable then d.configurable else attrs.configurable
  let enumerable := if d.hasEnumerable then d.enumerable else attrs.enumerable
  if d.isAccessor || d.isGeneric && current.isAccessor then
    accessor
      (if d.hasGetter then d.getter else current.accessorPart.1)
      (if d.hasSetter then d.setter else current.accessorPart.2)
      ⟨false, enumerable, configurable⟩
  else
    data
      (if d.hasValue then d.value else current.dataPart.1)
      ⟨if d.hasWritable then d.writable else current.dataPart.2, enumerable, configurable⟩

/-- The checks on the part of a non-configurable property that its kind decides. -/
def fixedRefusal? (d : Descriptor) : Property → Option Refusal
  | accessor getter setter _ =>
    if d.hasGetter && d.getter != getter || d.hasSetter && d.setter != setter then
      some .cantRedefineProperty
    else none
  | data value attrs =>
    if attrs.writable then none
    else if d.hasWritable && d.writable then some .cantRedefineProperty
    else if d.hasValue && !d.value.same value then some .readOnly
    else none

def refusal? (current : Property) (d : Descriptor) : Option Refusal :=
  let attrs := current.attributes
  if attrs.configurable then none
  else if d.hasConfigurable && d.configurable then some .cantRedefineProperty
  else if d.hasEnumerable && d.enumerable != attrs.enumerable then some .cantRedefineProperty
  else if !d.isGeneric && d.isAccessor != current.isAccessor then some .cantRedefineProperty
  else current.fixedRefusal? d

def redefine (current : Property) (d : Descriptor) : Except Refusal Property :=
  match current.refusal? d with
  | some r => .error r
  | none => .ok (current.merge d)

@[simp] theorem attributes_data (v : Value) (a : Attributes) :
    (data v a).attributes = a := rfl

@[simp] theorem attributes_accessor (g s : Option ObjectId) (a : Attributes) :
    (accessor g s a).attributes = a := rfl

@[simp] theorem isAccessor_toDescriptor (p : Property) :
    p.toDescriptor.isAccessor = p.isAccessor := by
  cases p <;> rfl

@[simp] theorem isComplete_toDescriptor (p : Property) :
    p.toDescriptor.isComplete = true := by
  cases p <;> rfl

@[simp] theorem ofDescriptor_ofData (v : Value) (a : Attributes) :
    ofDescriptor (.ofData v a) = data v a := rfl

end Property

end ProxyEngine
