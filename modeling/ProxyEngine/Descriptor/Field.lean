import ProxyEngine.Descriptor

/-!
Descriptors field by field, each field's content seen as a value: attributes as
booleans, functions as objects or null. Writing a field makes it present;
hiding one makes it absent and keeps its content.
-/

namespace ProxyEngine.Descriptor

inductive Field where
  | configurable
  | enumerable
  | writable
  | value
  | get
  | set
  deriving DecidableEq, Inhabited

namespace Field

def all : List Field :=
  [configurable, enumerable, writable, value, get, set]

def name : Field → String
  | configurable => "configurable"
  | enumerable => "enumerable"
  | writable => "writable"
  | value => "value"
  | get => "get"
  | set => "set"

def ofName? (s : String) : Option Field :=
  all.find? (·.name == s)

end Field

def has (d : Descriptor) : Field → Bool
  | .configurable => d.hasConfigurable
  | .enumerable => d.hasEnumerable
  | .writable => d.hasWritable
  | .value => d.hasValue
  | .get => d.hasGetter
  | .set => d.hasSetter

def content (d : Descriptor) : Field → Value
  | .configurable => .boolean d.configurable
  | .enumerable => .boolean d.enumerable
  | .writable => .boolean d.writable
  | .value => d.value
  | .get => .objectOrNull d.getter
  | .set => .objectOrNull d.setter

/-- Makes a field present with the given content; a function field takes no other
value than an object. -/
def put (d : Descriptor) (f : Field) (v : Value) : Descriptor :=
  let truth := v == .boolean true
  match f with
  | .configurable => { d with hasConfigurable := true, configurable := truth }
  | .enumerable => { d with hasEnumerable := true, enumerable := truth }
  | .writable => { d with hasWritable := true, writable := truth }
  | .value => { d with hasValue := true, value := v }
  | .get => { d with hasGetter := true, getter := v.asObject? }
  | .set => { d with hasSetter := true, setter := v.asObject? }

def hide (d : Descriptor) : Field → Descriptor
  | .configurable => { d with hasConfigurable := false }
  | .enumerable => { d with hasEnumerable := false }
  | .writable => { d with hasWritable := false }
  | .value => { d with hasValue := false }
  | .get => { d with hasGetter := false }
  | .set => { d with hasSetter := false }

@[simp] theorem has_put (d : Descriptor) (f : Field) (v : Value) : (d.put f v).has f = true := by
  cases f <;> rfl

@[simp] theorem has_hide (d : Descriptor) (f : Field) : (d.hide f).has f = false := by
  cases f <;> rfl

@[simp] theorem content_hide (d : Descriptor) (f g : Field) :
    (d.hide f).content g = d.content g := by
  cases f <;> rfl

end ProxyEngine.Descriptor
