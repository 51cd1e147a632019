import ProxyEngine.Program

/-!
Requests as functions, in the two forms programs use them: plain answers, and
answers in the monad of attempts, where the first failure ends the attempt and
leaves the context as it is.
-/

namespace ProxyEngine

abbrev Attempt (σ : Type) := ExceptT Failed (Program σ)

namespace Program

variable {σ α : Type} {s : Shape}

def perform (op : Op s) : Program σ s.Answer :=
  ask (.perform op) done

def invoke (handler : Handler) (op : Op s) : Program σ s.Answer :=
  ask (.invoke handler op) done

def key (name : String) : Program σ PropertyKey := act (.key name)
def newString (text : String) : Program σ Value := act (.newString text)
def keyToValue (k : PropertyKey) : Program σ Value := act (.keyToValue k)

def report (kind : ErrorKind) (message : String) : Program σ Unit :=
  act (.report kind message)

/-- Ends an operation that cannot go on: an error where the shape has room for one,
the fixed answer otherwise. -/
def giveUp (s : Shape) (kind : ErrorKind) (message : String) : Program σ s.Answer :=
  if s.canFail then do
    report kind message
    return s.givenUp
  else return s.givenUp

/-! Changes of the context. -/

def newSymbol (description : Option String) : Program σ SymbolId := act (.newSymbol description)

def newObject (prototype : Option ObjectId := some Context.objectPrototype) :
    Program σ ObjectId :=
  act (.newObject prototype)

def newFunction (code : FunctionId) (name : String) : Program σ ObjectId :=
  act (.newFunction code name)

def newConstructor (code : FunctionId) (name : String) : Program σ ObjectId :=
  act (.newConstructor code name)

def newBoxed (v : Value) : Program σ ObjectId := act (.newBoxed v)

def newProxy (handler : Handler) (privateValue : Value) (prototype : Option ObjectId)
    (options : ProxyOptions) : Program σ ObjectId :=
  act (.newProxy handler privateValue prototype options)

def storePrototype (o : ObjectId) (proto : Option ObjectId) : Program σ Outcome :=
  act (.storePrototype o proto)

def storeExtensible (o : ObjectId) (extensible : Bool) : Program σ Unit :=
  act (.storeExtensible o extensible)

def setPrivate (o : ObjectId) (v : Value) : Program σ Bool := act (.setPrivate o v)

def setReserved (o : ObjectId) (slot : Nat) (v : Value) : Program σ Bool :=
  act (.setReserved o slot v)

def setPending (v : Value) : Program σ Unit := act (.setPending v)
def clearPending : Program σ Unit := act .clearPending

def takePending : Program σ (Option Value) := do
  let v ← reads Context.pending
  clearPending
  return v

def addRoot (o : ObjectId) : Program σ Unit := act (.addRoot o)
def removeRoot (o : ObjectId) : Program σ Bool := act (.removeRoot o)
def setJobQueue (queue : JobQueue) : Program σ Unit := act (.setJobQueue queue)

def setPrincipals (principals : Option Principals) : Program σ Unit :=
  act (.setPrincipals principals)

/-! Questions. -/

def hasPendingJobs : Program σ Bool := ask .hasPendingJobs done
def isSystemPrincipal : Program σ Bool := ask .isSystemPrincipal done

def incumbentGlobal (queue : JobQueue) : Program σ (Option ObjectId) :=
  ask (.incumbentGlobal queue) done

def isCallable (o : ObjectId) : Program σ Bool := perform (.isCallable o)
def isConstructor (o : ObjectId) : Program σ Bool := perform (.isConstructor o)
def className (o : ObjectId) : Program σ String := perform (.className o)

def ownKeys (o : ObjectId) (listed : List PropertyKey) : Program σ Listing :=
  perform (.ownKeys o listed)

def enumerate (o : ObjectId) (listed : List PropertyKey) : Program σ Listing :=
  perform (.enumerate o listed)

def ownEnumerableKeys (o : ObjectId) (listed : List PropertyKey) : Program σ Listing :=
  perform (.ownEnumerableKeys o listed)

def enumerateThroughPrototypes (o : ObjectId) (listed : List PropertyKey) :
    Program σ Listing :=
  ask (.enumerateFrom o [] [] listed) done

def collect : Program σ Nat :=
  ask .collect done

def maybeCollect : Program σ Nat := do
  if (← context).collectionDue then collect else return 0

def escape : Program σ Escape := do
  let c ← context
  match ← takePending with
  | some v => return .exception v (c.describeException v)
  | none => return .uncatchable

end Program

namespace Attempt

variable {σ α : Type}

def of (p : Program σ (Fallible α)) : Attempt σ α :=
  ExceptT.mk p

def fail : Attempt σ α :=
  throw {}

def lift (p : Program σ α) : Attempt σ α :=
  ExceptT.lift p

def failWith (kind : ErrorKind) (message : String) : Attempt σ α := do
  lift (Program.report kind message)
  fail

def context : Attempt σ Context :=
  lift Program.context

def act (a : Action) : Attempt σ a.Response :=
  lift (Program.act a)

def key (name : String) : Attempt σ PropertyKey :=
  lift (Program.key name)

def getOwnProperty (o : ObjectId) (k : PropertyKey) : Attempt σ (Option Descriptor) :=
  of (Program.perform (.getOwnProperty o k))

def defineProperty (o : ObjectId) (k : PropertyKey) (d : Descriptor) : Attempt σ Outcome :=
  of (Program.perform (.defineProperty o k d))

def delete (o : ObjectId) (k : PropertyKey) : Attempt σ Outcome :=
  of (Program.perform (.delete o k))

def getPrototypeIfOrdinary (o : ObjectId) : Attempt σ OrdinaryPrototype :=
  of (Program.perform (.getPrototypeIfOrdinary o))

def getPrototype (o : ObjectId) : Attempt σ (Option ObjectId) :=
  of (Program.perform (.getPrototype o))

def setPrototype (o : ObjectId) (proto : Option ObjectId) : Attempt σ Outcome :=
  of (Program.perform (.setPrototype o proto))

def setImmutablePrototype (o : ObjectId) : Attempt σ Bool :=
  of (Program.perform (.setImmutablePrototype o))

def preventExtensions (o : ObjectId) : Attempt σ Outcome :=
  of (Program.perform (.preventExtensions o))

def isExtensible (o : ObjectId) : Attempt σ Bool :=
  of (Program.perform (.isExtensible o))

def has (o : ObjectId) (k : PropertyKey) : Attempt σ Bool :=
  of (Program.perform (.has o k))

def hasOwn (o : ObjectId) (k : PropertyKey) : Attempt σ Bool :=
  of (Program.perform (.hasOwn o k))

def get (o : ObjectId) (receiver : Value) (k : PropertyKey) : Attempt σ Value :=
  of (Program.perform (.get o receiver k))

def set (o : ObjectId) (k : PropertyKey) (v receiver : Value) : Attempt σ Outcome :=
  of (Program.perform (.set o k v receiver))

def call (o : ObjectId) (this : Value) (args : List Value) : Attempt σ Value :=
  of (Program.perform (.call o this args))

def construct (o : ObjectId) (args : List Value) (newTarget : Value) : Attempt σ Value :=
  of (Program.perform (.construct o args newTarget))

def functionToString (o : ObjectId) (isToString : Bool) : Attempt σ Value :=
  of (Program.perform (.functionToString o isToString))

def unbox (o : ObjectId) : Attempt σ Value :=
  of (Program.perform (.unbox o))

def runFunction (code : FunctionId) (this : Value) (args : List Value) : Attempt σ Value :=
  of (Program.ask (.runFunction code this args) .done)

end Attempt

end ProxyEngine
