import ProxyEngine.ErrorKind
import ProxyEngine.Handler
import ProxyEngine.Property.Table

/-!
What a heap slot stores for one object: own properties, prototype and
extensibility, which every object has, and the state of its kind.
-/

namespace ProxyEngine

structure FunctionId where
  index : Nat
  deriving DecidableEq, Inhabited

/-- State of a proxy. The private value is the target of a wrapper and free-form
data otherwise. -/
structure ProxyState where
  handler : Handler
  privateValue : Value
  reserved : List Value
  lazyPrototype : Bool
  callable : Bool
  deriving DecidableEq, Inhabited

inductive ObjectKind where
  | ordinary
  | function (code : FunctionId) (name : Atom) (isConstructor : Bool)
  | boxed (value : Value)
  | proxy (state : ProxyState)
  /-- An error reported by the engine; its message is never interned. -/
  | error (kind : ErrorKind) (message : String)
  deriving DecidableEq, Inhabited

structure ProxyOptions where
  lazyPrototype : Bool := false
  callable : Bool := false
  reservedSlots : Nat := 0
  deriving DecidableEq, Inhabited

namespace ObjectKind

def className : ObjectKind → String
  | ordinary => "Object"
  | function .. => "Function"
  | boxed v =>
    if v.isNumber then "Number"
    else if v.isBoolean then "Boolean"
    else if v.isString then "String"
    else "Object"
  | proxy _ => "Proxy"
  | error .. => "Error"

def isProxy : ObjectKind → Bool
  | proxy _ => true
  | _ => false

end ObjectKind

structure Object where
  kind : ObjectKind := .ordinary
  prototype : Option ObjectId := none
  className : String := kind.className
  properties : PropertyTable := .empty
  extensible : Bool := true
  immutablePrototype : Bool := false

namespace Object

instance : Inhabited Object := ⟨{}⟩

def isProxy (o : Object) : Bool :=
  o.kind.isProxy

def proxy? (o : Object) : Option ProxyState :=
  match o.kind with
  | .proxy s => some s
  | _ => none

def mapProxy (f : ProxyState → ProxyState) (o : Object) : Object :=
  match o.kind with
  | .proxy s => { o with kind := .proxy (f s) }
  | _ => o

def propertyReferences : Property → List ObjectId
  | .data v _ => v.asObject?.toList
  | .accessor getter setter _ => getter.toList ++ setter.toList

def kindReferences : ObjectKind → List ObjectId
  | .boxed v => v.asObject?.toList
  | .proxy s => s.privateValue.asObject?.toList ++ s.reserved.filterMap Value.asObject?
  | .ordinary | .function .. | .error .. => []

def references (o : Object) : List ObjectId :=
  o.prototype.toList ++ o.properties.entries.flatMap (propertyReferences ·.2)
    ++ kindReferences o.kind

end Object

end ProxyEngine
