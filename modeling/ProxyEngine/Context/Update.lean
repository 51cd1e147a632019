import ProxyEngine.Context

/-!
The elementary changes of a context. Each is a small step on its own; what the
engine does is composed of these and of nothing else. A step that allocates
fails when the heap can grow no further, and no other step fails. Refusals are
answers, and an error is a stored object that becomes the pending exception.
-/

namespace ProxyEngine

/-- A step on a context; `none` when the heap is full. -/
abbrev Update := StateT Context Option

namespace Update

def alloc (x : Object) : Update ObjectId := fun c =>
  (c.heap.alloc? x).map fun (o, heap) => (o, { c with heap })

def modifyObject (o : ObjectId) (f : Object → Object) : Update Unit :=
  modify fun c => { c with heap := c.heap.modify o f }

def intern (s : String) : Update Atom :=
  modifyGet fun c => let (a, atoms) := c.atoms.intern s; (a, { c with atoms })

def newString (s : String) : Update Value :=
  Value.string <$> intern s

def key (name : String) : Update PropertyKey :=
  match PropertyKey.parseIndex? name with
  | some i => pure (.index i)
  | none => PropertyKey.atom <$> intern name

def keyToValue : PropertyKey → Update Value
  | .atom a => pure (.string a)
  | .symbol s => pure (.symbol s)
  | .index i => newString (toString i.toNat)
  | .void => pure .undefined

def newSymbol (description : Option String) : Update SymbolId := do
  let d ← match description with
    | some s => some <$> intern s
    | none => pure none
  modifyGet fun c =>
    (⟨.ofNat c.symbols.length⟩, { c with symbols := c.symbols ++ [d] })

def defineStored (o : ObjectId) (k : PropertyKey) (d : Descriptor) : Update Outcome := do
  match (← get).get? o with
  | none => return .refused .cantDefineProperty
  | some x =>
    match x.properties.get? k with
    | some current =>
      match current.redefine d with
      | .ok p =>
        modifyObject o fun x => { x with properties := x.properties.insert k p }
        return .ok
      | .error r => return .refused r
    | none =>
      if x.extensible then
        modifyObject o fun x =>
          { x with properties := x.properties.insert k (.ofDescriptor d) }
        return .ok
      else return .refused .notExtensible

def deleteStored (o : ObjectId) (k : PropertyKey) : Update Outcome := do
  match (← get).ownProperty? o k with
  | none => return .ok
  | some p =>
    if p.attributes.configurable then
      modifyObject o fun x => { x with properties := x.properties.erase k }
      return .ok
    else return .refused .cantDelete

/-- Replaces the stored prototype unless it is fixed or would close a cycle of
objects that are not proxies. -/
def storePrototype (o : ObjectId) (proto : Option ObjectId) : Update Outcome := do
  let c ← get
  match c.get? o with
  | none => return .refused .cantSetPrototype
  | some x =>
    if x.prototype = proto then return .ok
    else if x.immutablePrototype || !x.extensible
        || c.prototypeWalkMeets o (c.heap.slotCount + 1) proto then
      return .refused .cantSetPrototype
    else
      modifyObject o fun x => { x with prototype := proto }
      return .ok

def storeExtensible (o : ObjectId) (extensible : Bool) : Update Unit :=
  modifyObject o fun x => { x with extensible }

def fixPrototype (o : ObjectId) : Update Unit :=
  modifyObject o fun x => { x with immutablePrototype := true }

def setPrivate (o : ObjectId) (v : Value) : Update Bool := do
  let found := (← get).isProxy o
  modifyObject o (Object.mapProxy fun s => { s with privateValue := v })
  return found

def setReserved (o : ObjectId) (slot : Nat) (v : Value) : Update Bool := do
  let found := ((← get).reserved? o slot).isSome
  modifyObject o (Object.mapProxy fun s => { s with reserved := s.reserved.set slot v })
  return found

def newObject (prototype : Option ObjectId := some Context.objectPrototype) : Update ObjectId :=
  alloc { prototype }

def newNative (code : FunctionId) (name : String) (isConstructor : Bool) : Update ObjectId := do
  let a ← intern name
  alloc { kind := .function code a isConstructor, prototype := some Context.functionPrototype }

def newFunction (code : FunctionId) (name : String) : Update ObjectId :=
  newNative code name false

def newConstructor (code : FunctionId) (name : String) : Update ObjectId := do
  let f ← newNative code name true
  let proto ← newObject
  let k ← key "prototype"
  discard <| defineStored f k (.ofData (.object proto) ⟨true, false, false⟩)
  return f

def newBoxed (v : Value) : Update ObjectId :=
  alloc { kind := .boxed v, prototype := some Context.objectPrototype }

def newProxy (handler : Handler) (privateValue : Value) (prototype : Option ObjectId)
    (options : ProxyOptions) : Update ObjectId :=
  alloc
    { kind := .proxy
        { handler, privateValue
          reserved := List.replicate options.reservedSlots .undefined
          lazyPrototype := options.lazyPrototype
          callable := options.callable }
      prototype }

def setPending (v : Value) : Update Unit :=
  modify fun c => { c with pending := some v }

def clearPending : Update Unit :=
  modify fun c => { c with pending := none }

/-- Makes a fresh error object the pending exception. Only its name is a property. -/
def report (kind : ErrorKind) (message : String) : Update Unit := do
  let e ← alloc { kind := .error kind message, prototype := some Context.objectPrototype }
  let k ← key "name"
  let name ← newString kind.name
  discard <| defineStored e k (.ofData name .hidden)
  setPending (.object e)

def addRoot (o : ObjectId) : Update Unit :=
  modify fun c =>
    { c with
      roots :=
        if (c.roots.lookup o).isSome then
          c.roots.map fun (r, n) => if r = o then (r, n + 1) else (r, n)
        else c.roots ++ [(o, 1)] }

def removeRoot (o : ObjectId) : Update Bool := do
  match (← get).roots.lookup o with
  | none => return false
  | some n =>
    modify fun c =>
      { c with
        roots :=
          if 1 < n then c.roots.map fun (r, n) => if r = o then (r, n - 1) else (r, n)
          else c.roots.filter (·.1 != o) }
    return true

def setJobQueue (q : JobQueue) : Update Unit :=
  modify fun c => { c with jobQueue := some q }

def setPrincipals (p : Option Principals) : Update Unit :=
  modify fun c => { c with principals := p }

end Update

/-- A failure that leaves the engine: an exception with its value, or a failure that
left none pending. -/
inductive Escape where
  | exception (value : Value) (description : String)
  | uncatchable
  deriving DecidableEq

namespace Escape

def message : Escape → String
  | exception _ description => "Uncaught exception: " ++ description
  | uncatchable => "operation failed without a pending exception"

end Escape

end ProxyEngine
