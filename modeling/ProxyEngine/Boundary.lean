import ProxyEngine.CloneWriter
import ProxyEngine.Program.Convenience
import ProxyEngine.Tracer

/-!
Flat entry points for foreign code. Every pointer may be null, here an option:
the context, a handler, and each out parameter, which is given with the content
it has before the call and comes back with the content it has afterwards. A
null pointer ends a call at once. A call answers whether it succeeded and
writes its out parameters only then.
-/

namespace ProxyEngine.Boundary

variable {σ α : Type}

inductive ContextRef where
  | null
  | current
  deriving DecidableEq, Inhabited

abbrev Out (α : Type) := Option α

def withContext (cx : ContextRef) (otherwise : α) (p : Program σ α) : Program σ α :=
  match cx with
  | .null => return otherwise
  | .current => p

/-- Runs when neither the context nor the out parameter is null, and writes what the
program answers. -/
def writing (cx : ContextRef) (out : Out α) (p : Program σ (Option α)) :
    Program σ (Bool × Out α) :=
  match cx, out with
  | .current, some _ => do
    match ← p with
    | some a => return (true, some a)
    | none => return (false, out)
  | _, _ => return (false, out)

def result? (p : Attempt σ α) : Program σ (Option α) :=
  Except.toOption <$> p.run

/-! Handlers and proxies. -/

def createForwardingHandler (traps : Option TrapTable) (extra : Nat) : Option Handler :=
  traps.map fun t => .traps t extra .plain

def createWrapperHandler (traps : Option TrapTable) : Option Handler :=
  traps.map fun t => .traps t 0 .wrapper

def newProxyObject (cx : ContextRef) (handler : Option Handler) (privateValue : Value)
    (prototype : Option ObjectId) (options : ProxyOptions) : Program σ (Option ObjectId) :=
  withContext cx none <|
    match handler with
    | some h => some <$> Program.newProxy h privateValue prototype options
    | none => return none

/-- A wrapper around `target`: the prototype is read through the handler and the proxy
is callable when the target is. -/
def newWrapper (cx : ContextRef) (target : ObjectId) (handler : Option Handler) :
    Program σ (Option ObjectId) :=
  withContext cx none <|
    match handler with
    | some h => do
      let callable ← Program.isCallable target
      some <$> Program.newProxy h (.object target) none { lazyPrototype := true, callable }
    | none => return none

def handlerExtra (cx : ContextRef) (o : ObjectId) : Program σ Nat :=
  withContext cx 0 <|
    Program.reads fun c => ((c.handler? o).bind Handler.forwardingExtra?).getD 0

def isForwardingProxy (cx : ContextRef) (o : ObjectId) : Program σ Bool :=
  withContext cx false <|
    Program.reads fun c => ((c.handler? o).bind Handler.forwardingExtra?).isSome

def isWrapper (cx : ContextRef) (o : ObjectId) : Program σ Bool :=
  withContext cx false <| Program.reads fun c => c.isWrapper o

def unwrapObject (cx : ContextRef) (o : ObjectId) : Program σ ObjectId :=
  withContext cx o <| Program.reads fun c => c.unwrap o

def getPrivate (cx : ContextRef) (o : ObjectId) (out : Out Value) :
    Program σ (Bool × Out Value) :=
  writing cx out <| Program.reads fun c => c.private? o

def setPrivate (cx : ContextRef) (o : ObjectId) (v : Value) : Program σ Bool :=
  withContext cx false <| Program.setPrivate o v

def getReserved (cx : ContextRef) (o : ObjectId) (slot : Nat) (out : Out Value) :
    Program σ (Bool × Out Value) :=
  writing cx out <| Program.reads fun c => c.reserved? o slot

def setReserved (cx : ContextRef) (o : ObjectId) (slot : Nat) (v : Value) : Program σ Bool :=
  withContext cx false <| Program.setReserved o slot v

/-! Operations. -/

/-- Two pointers that take an optional descriptor, either of which may be null. -/
structure DescriptorOut where
  desc : Out Descriptor
  isNone : Out Bool

def DescriptorOut.content? (out : DescriptorOut) : Out (Flattened Descriptor) := do
  return ⟨← out.desc, ← out.isNone⟩

def writingDescriptor (cx : ContextRef) (out : DescriptorOut)
    (p : Program σ (Option (Option Descriptor))) : Program σ (Bool × DescriptorOut) := do
  match ← writing cx out.content? (Option.map Flattened.ofOption <$> p) with
  | (ok, some m) => return (ok, ⟨some m.value, some m.isNone⟩)
  | (ok, none) => return (ok, out)

/-- A handler's own answer for a property, bypassing the proxy's dispatch. -/
def invokeGetOwnProperty (handler : Option Handler) (cx : ContextRef) (o : ObjectId)
    (k : PropertyKey) (out : DescriptorOut) : Program σ (Bool × DescriptorOut) :=
  match handler with
  | some h => writingDescriptor cx out <| result? (.of (Program.invoke h (.getOwnProperty o k)))
  | none => return (false, out)

def invokeHasOwn (handler : Option Handler) (cx : ContextRef) (o : ObjectId)
    (k : PropertyKey) (out : Out Bool) : Program σ (Bool × Out Bool) :=
  match handler with
  | some h => writing cx out <| result? (.of (Program.invoke h (.hasOwn o k)))
  | none => return (false, out)

def getOwnProperty (cx : ContextRef) (o : ObjectId) (k : PropertyKey) (out : DescriptorOut) :
    Program σ (Bool × DescriptorOut) :=
  writingDescriptor cx out <| result? (Attempt.getOwnProperty o k)

def defineProperty (cx : ContextRef) (o : ObjectId) (k : PropertyKey)
    (desc : Option Descriptor) (out : Out Outcome) : Program σ (Bool × Out Outcome) :=
  match desc with
  | some d => writing cx out <| result? (Attempt.defineProperty o k d)
  | none => return (false, out)

def forwardGet (cx : ContextRef) (target : ObjectId) (receiver : Value) (k : PropertyKey)
    (out : Out Value) : Program σ (Bool × Out Value) :=
  writing cx out <| result? (Attempt.get target receiver k)

def forwardSet (cx : ContextRef) (target : ObjectId) (k : PropertyKey) (v receiver : Value)
    (out : Out Outcome) : Program σ (Bool × Out Outcome) :=
  writing cx out <| result? (Attempt.set target k v receiver)

/-! Descriptors. -/

def setDataDescriptor (out : Out Descriptor) (v : Value) (flags : Nat) : Out Descriptor :=
  out.map fun _ => .ofData v (.ofFlags flags)

def setAccessorDescriptor (out : Out Descriptor) (getter setter : Option ObjectId)
    (flags : Nat) : Out Descriptor :=
  out.map fun _ => .ofAccessor getter setter (.ofFlags flags)

/-! Exceptions. -/

def text? (bytes : Option (List UInt8)) : Option String :=
  bytes.bind fun bs => Utf8.decode? (Utf8.cString bs)

def reportError (cx : ContextRef) (message : Option (List UInt8)) : Program σ Unit :=
  withContext cx () <| Program.report .error ((text? message).getD "")

def isExceptionPending (cx : ContextRef) : Program σ Bool :=
  withContext cx false <| Program.reads fun c => c.pending.isSome

def getPendingException (cx : ContextRef) (out : Out Value) : Program σ (Bool × Out Value) :=
  writing cx out <| Program.reads Context.pending

def setPendingException (cx : ContextRef) (v : Value) : Program σ Unit :=
  withContext cx () <| Program.setPending v

def clearPendingException (cx : ContextRef) : Program σ Unit :=
  withContext cx () <| Program.clearPending

/-! Keys and strings. -/

def writingText (cx : ContextRef) (bytes : Option (List UInt8)) (what : String)
    (out : Out α) (p : String → Program σ α) : Program σ (Bool × Out α) :=
  writing cx out <|
    match text? bytes with
    | some s => some <$> p s
    | none => do
      Program.report .typeError (what ++ " is not valid UTF-8")
      return none

def atomize (cx : ContextRef) (name : Option (List UInt8)) (out : Out PropertyKey) :
    Program σ (Bool × Out PropertyKey) :=
  writingText cx name "property name" out Program.key

def newString (cx : ContextRef) (bytes : Option (List UInt8)) (out : Out Value) :
    Program σ (Bool × Out Value) :=
  writingText cx bytes "string" out Program.newString

def intToKey (i : UInt32) : PropertyKey := .index i

def keyToInt (k : PropertyKey) : UInt32 := k.asIndex?.getD 0

/-! Key vectors. -/

def appendToKeyVector (v : Option KeyVector) (k : PropertyKey) : Bool × Option KeyVector :=
  match v with
  | some v => (true, some (v.push k))
  | none => (false, none)

def sliceKeyVector (v : Option KeyVector) (length : Out Nat) : List PropertyKey × Out Nat :=
  let keys := (v.map KeyVector.keys).getD []
  (keys, length.map fun _ => keys.length)

/-! Tracing. -/

def trace (t : Option Tracer) (e : Edge) : Option Tracer :=
  t.map (·.report e)

/-! Callbacks. -/

def setJobQueue (cx : ContextRef) (queue : Option JobQueue) : Program σ Bool :=
  withContext cx false <|
    match queue with
    | some q => (fun _ => true) <$> Program.setJobQueue q
    | none => return false

def enqueuePromiseJob (cx : ContextRef) (promise : Option ObjectId) (job : ObjectId)
    (site : Option ObjectId) : Program σ Bool :=
  withContext cx false <|
    Option.isSome <$> result? (Attempt.enqueuePromiseJob promise job site)

def setPrincipals (cx : ContextRef) (principals : Option Principals) : Program σ Bool :=
  withContext cx false <|
    match principals with
    | some p => (fun _ => true) <$> Program.setPrincipals (some p)
    | none => return false

def principalsPrivate (cx : ContextRef) : Program σ Nat :=
  withContext cx 0 <| Program.reads fun c => (c.principals.map Principals.privateData).getD 0

/-- Appends `length` bytes read from a pointer; nothing needs to be there when the
length is zero. -/
def writeBytes (writer : Option CloneWriter) (bytes : Option (List UInt8)) (length : Nat) :
    Bool × Option CloneWriter :=
  match writer with
  | none => (false, none)
  | some w =>
    if length = 0 then (true, some w)
    else match bytes with
      | some bs => (true, some (w.write (bs.take length)))
      | none => (false, some w)

end ProxyEngine.Boundary
