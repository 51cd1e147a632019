import ProxyEngine.Program.Attempt

/-!
How objects that are not proxies answer the operations, from the state stored
on them. Reads and writes that leave the object go on through requests, so they
meet proxies on prototype chains and as receivers. The parts that handlers share
come first: reading through a descriptor, assignment once the own property is
known, and the walk for enumerable keys.
-/

namespace ProxyEngine

def nativeSource (name : String) : String :=
  "function " ++ name ++ "() \x7b\n    [native code]\n\x7d"

namespace Ordinary

variable {σ : Type} {s : Shape}

def readThrough (d : Descriptor) (receiver : Value) : Attempt σ Value :=
  if d.isAccessor then
    match d.getter? with
    | some g => Attempt.call g receiver []
    | none => return .undefined
  else return d.valueOrUndefined

def writeTo (receiver : ObjectId) (k : PropertyKey) (v : Value) : Attempt σ Outcome := do
  match ← Attempt.getOwnProperty receiver k with
  | some existing =>
    if existing.isAccessor then return .refused .cantRedefineProperty
    else if !existing.isWritable then return .refused .readOnly
    else Attempt.defineProperty receiver k (.valueOnly v)
  | none => Attempt.defineProperty receiver k (.ofData v)

def assign (own : Descriptor) (k : PropertyKey) (v receiver : Value) : Attempt σ Outcome := do
  if own.isAccessor then
    match own.setter? with
    | some f =>
      discard <| Attempt.call f receiver [v]
      return .ok
    | none => return .refused .getterOnly
  else if !own.isWritable then return .refused .readOnly
  else
    match receiver.asObject? with
    | none => return .refused .notObjectReceiver
    | some r => writeTo r k v

/-- Assignment on `o`, given its own property: without one the prototype decides, and
at the end of the chain the property counts as writable. -/
def setWithOwn (o : ObjectId) (k : PropertyKey) (v receiver : Value) :
    Option Descriptor → Attempt σ Outcome
  | some own => assign own k v receiver
  | none => do
    match ← Attempt.getPrototype o with
    | some p => Attempt.set p k v receiver
    | none => assign (.ofData .undefined) k v receiver

/-- Visits keys of `o` in order, skipping symbols and keys seen before, and pushes the
enumerable ones; answers the vector and all keys seen by then. -/
def visitKeys (o : ObjectId) : List PropertyKey → (seen listed : List PropertyKey) →
    Program σ (Listing × List PropertyKey)
  | [], seen, listed => return ({ keys := listed }, seen)
  | k :: ks, seen, listed =>
    if k.isSymbol || seen.contains k then visitKeys o ks seen listed
    else do
      match ← (Attempt.getOwnProperty o k).run with
      | .error _ => return ({ keys := listed, failed := true }, k :: seen)
      | .ok d =>
        visitKeys o ks (k :: seen) (if d.any Descriptor.isEnumerable then listed ++ [k] else listed)

/-- One object of the walk for enumerable keys, then its prototype; the walk ends at
an object that was visited before. -/
def enumerateFrom (o : ObjectId) (visited : List ObjectId) (seen listed : List PropertyKey) :
    Program σ Listing :=
  if visited.contains o then return { keys := listed }
  else do
    let own ← Program.ownKeys o []
    if own.failed then return { keys := listed, failed := true }
    let (here, seen) ← visitKeys o own.keys seen listed
    if here.failed then return here
    match ← (Attempt.getPrototype o).run with
    | .error _ => return { here with failed := true }
    | .ok none => return here
    | .ok (some p) => Program.ask (.enumerateFrom p (o :: visited) seen here.keys) .done

def get (o : ObjectId) (receiver : Value) (k : PropertyKey) : Attempt σ Value := do
  let c ← Attempt.context
  match c.ownDescriptor? o k with
  | some d => readThrough d receiver
  | none =>
    match c.storedPrototype o with
    | some p => Attempt.get p receiver k
    | none => return .undefined

def set (o : ObjectId) (k : PropertyKey) (v receiver : Value) : Attempt σ Outcome := do
  setWithOwn o k v receiver ((← Attempt.context).ownDescriptor? o k)

def has (o : ObjectId) (k : PropertyKey) : Attempt σ Bool := do
  let c ← Attempt.context
  if (c.ownDescriptor? o k).isSome then return true
  else
    match c.storedPrototype o with
    | some p => Attempt.has p k
    | none => return false

def deadObject {α : Type} : Attempt σ α :=
  Attempt.failWith .internalError "can't access dead object"

def call (o : ObjectId) (this : Value) (args : List Value) : Attempt σ Value := do
  match (← Attempt.context).function? o with
  | some (code, _) => Attempt.runFunction code this args
  | none => deadObject

def prototypeFor (newTarget : Value) : Attempt σ ObjectId := do
  match newTarget.asObject? with
  | some t =>
    let k ← Attempt.key "prototype"
    return (← Attempt.get t newTarget k).asObject?.getD Context.objectPrototype
  | none => return Context.objectPrototype

def construct (o : ObjectId) (args : List Value) (newTarget : Value) : Attempt σ Value := do
  match (← Attempt.context).function? o with
  | some (code, _) =>
    let proto ← prototypeFor newTarget
    let this ← Attempt.act (.newObject (some proto))
    let result ← Attempt.runFunction code (.object this) args
    return if result.isObject then result else .object this
  | none => deadObject

def functionToString (o : ObjectId) : Attempt σ Value := do
  let c ← Attempt.context
  match c.function? o with
  | some (_, name, _) => Attempt.lift <| Program.newString (nativeSource (c.atomText name))
  | none =>
    Attempt.failWith .typeError "Function.prototype.toString called on incompatible object"

def method : Op s → Program σ s.Answer
  | .getOwnProperty o k => Program.reads fun c => Except.ok (c.ownDescriptor? o k)
  | .defineProperty o k d => Except.ok <$> Program.act (.defineStored o k d)
  | .ownKeys o listed => Program.reads fun c => { keys := listed ++ c.ownKeys o }
  | .delete o k => Except.ok <$> Program.act (.deleteStored o k)
  | .enumerate o listed => Program.enumerateThroughPrototypes o listed
  | .getPrototypeIfOrdinary o =>
    Program.reads fun c => Except.ok (.ordinary (c.storedPrototype o))
  | .getPrototype o => Program.reads fun c => Except.ok (c.storedPrototype o)
  | .setPrototype o p => Except.ok <$> Program.act (.storePrototype o p)
  | .setImmutablePrototype o => (fun _ => Except.ok true) <$> Program.act (.fixPrototype o)
  | .preventExtensions o =>
    (fun _ => Except.ok Outcome.ok) <$> Program.act (.storeExtensible o false)
  | .isExtensible o => Program.reads fun c => Except.ok (c.storedExtensible o)
  | .has o k => (has o k).run
  | .get o receiver k => (get o receiver k).run
  | .set o k v receiver => (set o k v receiver).run
  | .call o this args => (call o this args).run
  | .construct o args newTarget => (construct o args newTarget).run
  | .hasOwn o k => Program.reads fun c => Except.ok (c.ownDescriptor? o k).isSome
  | .ownEnumerableKeys o listed =>
    Program.reads fun c => { keys := listed ++ c.ownEnumerableKeys o }
  | .className o => Program.reads fun c => (c.storedClassName o).getD "Object"
  | .functionToString o _ => (functionToString o).run
  | .unbox o => Program.reads fun c => Except.ok (c.boxedValue o)
  | .isCallable o => Program.reads fun c => (c.function? o).isSome
  | .isConstructor o => Program.reads fun c => (c.function? o).any (·.2.2)

end Ordinary

end ProxyEngine
