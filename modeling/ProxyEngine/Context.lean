import ProxyEngine.Callbacks
import ProxyEngine.Heap
import ProxyEngine.Options

/-!
A context owns everything an engine instance has: heap, interned strings,
symbols, the pending exception, roots, the dispatch depth and the installed
callbacks. This module holds the state and what can be read from it; nothing
here changes a context.
-/

namespace ProxyEngine

structure GcStats where
  collections : Nat := 0
  lastReclaimed : Nat := 0
  totalReclaimed : Nat := 0
  lastMarked : Nat := 0
  deriving DecidableEq, Inhabited

structure Context where
  options : ContextOptions
  heap : Heap
  atoms : AtomTable := {}
  symbols : List (Option Atom) := []
  pending : Option Value := none
  /-- Rooted handles with the number of their registrations, which wraps around. -/
  roots : List (ObjectId × UInt32) := []
  stats : GcStats := {}
  /-- Number of handler methods and host functions now running. -/
  depth : Nat := 0
  jobQueue : Option JobQueue := none
  principals : Option Principals := none
  deriving Inhabited

/-- A prototype that can be read without running a handler, or a sign that it cannot. -/
inductive OrdinaryPrototype where
  | ordinary (prototype : Option ObjectId)
  | notOrdinary
  deriving DecidableEq, Inhabited

namespace Context

def objectPrototype : ObjectId := .first SlotIndex.first
def functionPrototype : ObjectId := .first ⟨1, by decide⟩
def global : ObjectId := .first ⟨2, by decide⟩

def intrinsics : List Object :=
  [{}, { prototype := some objectPrototype },
    { prototype := some objectPrototype, className := "global" }]

def create (options : ContextOptions := {}) : Context :=
  { options
    heap := { slots := (intrinsics.map fun x => ⟨.first, some x⟩).toArray, live := 3 } }

def maxDepth (c : Context) : Nat :=
  c.options.maxDispatchDepth.toNat

def get? (c : Context) (o : ObjectId) : Option Object :=
  c.heap.get? o

def isLive (c : Context) (o : ObjectId) : Bool :=
  c.heap.isLive o

def proxy? (c : Context) (o : ObjectId) : Option ProxyState :=
  (c.get? o).bind Object.proxy?

def isProxy (c : Context) (o : ObjectId) : Bool :=
  (c.proxy? o).isSome

def handler? (c : Context) (o : ObjectId) : Option Handler :=
  (c.proxy? o).map ProxyState.handler

def private? (c : Context) (o : ObjectId) : Option Value :=
  (c.proxy? o).map ProxyState.privateValue

def target? (c : Context) (o : ObjectId) : Option ObjectId :=
  (c.private? o).bind Value.asObject?

def reserved? (c : Context) (o : ObjectId) (slot : Nat) : Option Value :=
  (c.proxy? o).bind (·.reserved[slot]?)

def isWrapper (c : Context) (o : ObjectId) : Bool :=
  (c.handler? o).any Handler.isWrapper

def storedPrototype (c : Context) (o : ObjectId) : Option ObjectId :=
  (c.get? o).bind Object.prototype

/-- The stored prototype as a plain handler answers it: a proxy made with a lazy
prototype does not show the stored one. -/
def storedProxyPrototype (c : Context) (o : ObjectId) : OrdinaryPrototype :=
  if (c.proxy? o).any ProxyState.lazyPrototype then .notOrdinary
  else .ordinary (c.storedPrototype o)

def storedExtensible (c : Context) (o : ObjectId) : Bool :=
  (c.get? o).any Object.extensible

def storedCallable (c : Context) (o : ObjectId) : Bool :=
  (c.proxy? o).any ProxyState.callable

def ownProperty? (c : Context) (o : ObjectId) (k : PropertyKey) : Option Property :=
  (c.get? o).bind (·.properties.get? k)

def ownDescriptor? (c : Context) (o : ObjectId) (k : PropertyKey) : Option Descriptor :=
  (c.ownProperty? o k).map Property.toDescriptor

def ownKeys (c : Context) (o : ObjectId) : List PropertyKey :=
  match c.get? o with
  | some x => x.properties.orderedKeys
  | none => []

def ownEnumerableKeys (c : Context) (o : ObjectId) : List PropertyKey :=
  (c.ownKeys o).filter fun k => (c.ownProperty? o k).any (·.attributes.enumerable)

def function? (c : Context) (o : ObjectId) : Option (FunctionId × Atom × Bool) :=
  (c.get? o).bind fun x =>
    match x.kind with
    | .function code name isConstructor => some (code, name, isConstructor)
    | _ => none

def errorInfo? (c : Context) (o : ObjectId) : Option (ErrorKind × String) :=
  (c.get? o).bind fun x =>
    match x.kind with
    | .error kind message => some (kind, message)
    | _ => none

def boxedValue (c : Context) (o : ObjectId) : Value :=
  match (c.get? o).map Object.kind with
  | some (.boxed v) => v
  | _ => .undefined

def storedClassName (c : Context) (o : ObjectId) : Option String :=
  (c.get? o).map Object.className

/-- Strips at most `budget` wrappers from an object. -/
def unwrapAtMost (c : Context) : (budget : Nat) → ObjectId → ObjectId
  | 0, o => o
  | budget + 1, o =>
    if c.isWrapper o then
      match c.target? o with
      | some t => c.unwrapAtMost budget t
      | none => o
    else o

def unwrap (c : Context) (o : ObjectId) : ObjectId :=
  c.unwrapAtMost c.maxDepth o

/-- Whether `o` is met from `p` along the stored prototypes of live non-proxies. -/
def prototypeWalkMeets (c : Context) (o : ObjectId) : (budget : Nat) → (p : Option ObjectId) → Bool
  | 0, _ => false
  | _ + 1, none => false
  | budget + 1, some p =>
    p == o ||
      match c.get? p with
      | some x => !x.isProxy && c.prototypeWalkMeets o budget x.prototype
      | none => false

def atomText (c : Context) (a : Atom) : String :=
  (c.atoms.get? a).getD ""

def symbolDescription (c : Context) (s : SymbolId) : String :=
  match c.symbols[s.index.toNat]? with
  | some (some a) => c.atomText a
  | _ => ""

def keyText (c : Context) : PropertyKey → String
  | .index i => toString i.toNat
  | .atom a => c.atomText a
  | .symbol s => "Symbol(" ++ c.symbolDescription s ++ ")"
  | .void => "<void>"

def valueText (c : Context) (v : Value) : String :=
  if let some a := v.asString? then c.atomText a
  else if let some s := v.asSymbol? then c.keyText (.symbol s)
  else if let some o := v.asObject? then
    "[object " ++ (c.storedClassName o).getD "dead" ++ "]"
  else if let some n := v.asInt32? then toString n.toInt
  else if let some x := v.asNumber? then x.plainText
  else v.debugText

/-- The string in an own data property, read without running anything. -/
def ownText? (c : Context) (o : ObjectId) (name : String) : Option String :=
  (c.atoms.find? name).bind fun a =>
    match c.ownProperty? o (.atom a) with
    | some (.data v _) => v.asString?.map c.atomText
    | _ => none

def describeException (c : Context) (v : Value) : String :=
  match v.asObject? with
  | none => c.valueText v
  | some o =>
    match c.errorInfo? o with
    | some (kind, message) => kind.name ++ ": " ++ message
    | none =>
      match c.ownText? o "name", c.ownText? o "message" with
      | some name, some message => name ++ ": " ++ message
      | none, some message => message
      | _, none => c.valueText v

def collectionDue (c : Context) : Bool :=
  0 < c.options.gcThreshold.toNat
    && c.options.gcThreshold.toNat ≤ c.heap.allocatedSinceGc

end Context

end ProxyEngine
