import ProxyEngine.Behaviour.Ordinary

/-!
The plain handler. Its fundamental operations succeed without effect, or use the
state stored on the proxy itself; every other operation is rebuilt from
operations on the proxy, so it sees what a trap table over the handler answers.
-/

namespace ProxyEngine.Plain

variable {σ : Type} {s : Shape}

def has (o : ObjectId) (k : PropertyKey) : Attempt σ Bool := do
  if (← Attempt.getOwnProperty o k).isSome then return true
  else
    match ← Attempt.getPrototype o with
    | some p => Attempt.has p k
    | none => return false

def get (o : ObjectId) (receiver : Value) (k : PropertyKey) : Attempt σ Value := do
  match ← Attempt.getOwnProperty o k with
  | some d => Ordinary.readThrough d receiver
  | none =>
    match ← Attempt.getPrototype o with
    | some p => Attempt.get p receiver k
    | none => return .undefined

def set (o : ObjectId) (k : PropertyKey) (v receiver : Value) : Attempt σ Outcome := do
  Ordinary.setWithOwn o k v receiver (← Attempt.getOwnProperty o k)

def hasOwn (o : ObjectId) (k : PropertyKey) : Attempt σ Bool :=
  Option.isSome <$> Attempt.getOwnProperty o k

def enumerableAmong (o : ObjectId) :
    List PropertyKey → (listed : List PropertyKey) → Program σ Listing
  | [], listed => return { keys := listed }
  | k :: ks, listed => do
    match ← (Attempt.getOwnProperty o k).run with
    | .error _ => return { keys := listed, failed := true }
    | .ok d =>
      enumerableAmong o ks (if d.any Descriptor.isEnumerable then listed ++ [k] else listed)

def ownEnumerableKeys (o : ObjectId) (listed : List PropertyKey) : Program σ Listing := do
  let own ← Program.ownKeys o []
  if own.failed then return { keys := listed, failed := true }
  else enumerableAmong o own.keys listed

def className (o : ObjectId) : Program σ String := do
  if ← Program.isCallable o then return "Function" else return "Object"

def functionToString (o : ObjectId) : Attempt σ Value := do
  if ← Attempt.lift (Program.isCallable o) then
    Attempt.lift (Program.newString (nativeSource ""))
  else
    Attempt.failWith .typeError "Function.prototype.toString called on incompatible object"

def method : Op s → Program σ s.Answer
  | .getOwnProperty .. => return Except.ok none
  | .defineProperty .. => return Except.ok .ok
  | .ownKeys _ listed => return ({ keys := listed } : Listing)
  | .delete .. => return Except.ok .ok
  | .enumerate o listed => Program.enumerateThroughPrototypes o listed
  | .getPrototypeIfOrdinary o => Program.reads fun c => Except.ok (c.storedProxyPrototype o)
  | .getPrototype o => Program.reads fun c => Except.ok (c.storedPrototype o)
  | .setPrototype o p => Except.ok <$> Program.act (.storePrototype o p)
  | .setImmutablePrototype _ => return Except.ok false
  | .preventExtensions o =>
    (fun _ => Except.ok Outcome.ok) <$> Program.act (.storeExtensible o false)
  | .isExtensible o => Program.reads fun c => Except.ok (c.storedExtensible o)
  | .has o k => (has o k).run
  | .get o receiver k => (get o receiver k).run
  | .set o k v receiver => (set o k v receiver).run
  | .call .. => return Except.ok .undefined
  | .construct .. => return Except.ok .undefined
  | .hasOwn o k => (hasOwn o k).run
  | .ownEnumerableKeys o listed => ownEnumerableKeys o listed
  | .className o => className o
  | .functionToString o _ => (functionToString o).run
  | .unbox _ => return Except.ok .undefined
  | .isCallable o => Program.reads fun c => c.storedCallable o
  | .isConstructor o => Program.isCallable o

end ProxyEngine.Plain
