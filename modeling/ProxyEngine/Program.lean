import ProxyEngine.Operation

/-!
Programs that use a context. Everything that runs inside the engine, the
engine's own algorithms, the built-in handlers and all foreign code alike, is a
program: a tree whose nodes look at the context, replace the embedder's state,
or make a request and go on with the response. A program can change the context
through requests only, so a fact about every request is a fact about every
program.
-/

namespace ProxyEngine

/-- Elementary changes of a context, as data. -/
inductive Action where
  | intern (text : String)
  | newString (text : String)
  | key (name : String)
  | keyToValue (key : PropertyKey)
  | newSymbol (description : Option String)
  | newObject (prototype : Option ObjectId)
  | newFunction (code : FunctionId) (name : String)
  | newConstructor (code : FunctionId) (name : String)
  | newBoxed (v : Value)
  | newProxy (handler : Handler) (privateValue : Value) (prototype : Option ObjectId)
      (options : ProxyOptions)
  | defineStored (o : ObjectId) (key : PropertyKey) (desc : Descriptor)
  | deleteStored (o : ObjectId) (key : PropertyKey)
  | storePrototype (o : ObjectId) (proto : Option ObjectId)
  | storeExtensible (o : ObjectId) (extensible : Bool)
  | fixPrototype (o : ObjectId)
  | setPrivate (o : ObjectId) (v : Value)
  | setReserved (o : ObjectId) (slot : Nat) (v : Value)
  | setPending (v : Value)
  | clearPending
  | report (kind : ErrorKind) (message : String)
  | addRoot (o : ObjectId)
  | removeRoot (o : ObjectId)
  | setJobQueue (queue : JobQueue)
  | setPrincipals (principals : Option Principals)

namespace Action

def Response : Action → Type
  | intern _ => Atom
  | newString _ | keyToValue _ => Value
  | key _ => PropertyKey
  | newSymbol _ => SymbolId
  | newObject _ | newFunction .. | newConstructor .. | newBoxed _ | newProxy .. => ObjectId
  | defineStored .. | deleteStored .. | storePrototype .. => Outcome
  | setPrivate .. | setReserved .. | removeRoot _ => Bool
  | storeExtensible .. | fixPrototype _ | setPending _ | clearPending | report .. | addRoot _
  | setJobQueue _ | setPrincipals _ => Unit

def update : (a : Action) → Update a.Response
  | intern text => Update.intern text
  | newString text => Update.newString text
  | key name => Update.key name
  | keyToValue k => Update.keyToValue k
  | newSymbol description => Update.newSymbol description
  | newObject prototype => Update.newObject prototype
  | newFunction code name => Update.newFunction code name
  | newConstructor code name => Update.newConstructor code name
  | newBoxed v => Update.newBoxed v
  | newProxy handler privateValue prototype options =>
    Update.newProxy handler privateValue prototype options
  | defineStored o k desc => Update.defineStored o k desc
  | deleteStored o k => Update.deleteStored o k
  | storePrototype o proto => Update.storePrototype o proto
  | storeExtensible o extensible => Update.storeExtensible o extensible
  | fixPrototype o => Update.fixPrototype o
  | setPrivate o v => Update.setPrivate o v
  | setReserved o slot v => Update.setReserved o slot v
  | setPending v => Update.setPending v
  | clearPending => Update.clearPending
  | report kind message => Update.report kind message
  | addRoot o => Update.addRoot o
  | removeRoot o => Update.removeRoot o
  | setJobQueue queue => Update.setJobQueue queue
  | setPrincipals principals => Update.setPrincipals principals

end Action

inductive Request where
  /-- A change of the context. -/
  | act (a : Action)
  /-- An operation on an object, dispatched by what the object is. -/
  | perform {s : Shape} (op : Op s)
  /-- A handler's own answer to an operation, without entering a dispatch level. -/
  | invoke {s : Shape} (handler : Handler) (op : Op s)
  /-- The body of a host function, one dispatch level deeper. -/
  | runFunction (code : FunctionId) (this : Value) (args : List Value)
  /-- The rest of a walk for enumerable string keys, from `o` along the prototypes. -/
  | enumerateFrom (o : ObjectId) (visited : List ObjectId) (seen listed : List PropertyKey)
  /-- A full collection; answers the number of objects reclaimed. -/
  | collect
  | incumbentGlobal (queue : JobQueue)
  | enqueueJob (queue : JobQueue) (promise : Option ObjectId) (job : ObjectId)
      (site incumbent : Option ObjectId)
  /-- The bytes the installed principals write about themselves. -/
  | writePrincipals (principals : Principals)
  | hasPendingJobs
  | isSystemPrincipal

structure Written where
  bytes : List UInt8 := []
  failed : Bool := false
  deriving DecidableEq, Inhabited

namespace Request

def Response : Request → Type
  | act a => a.Response
  | perform (s := s) _ => s.Answer
  | invoke (s := s) _ _ => s.Answer
  | runFunction .. => Fallible Value
  | enumerateFrom .. => Listing
  | collect => Nat
  | incumbentGlobal _ => Option ObjectId
  | enqueueJob .. => Fallible Unit
  | writePrincipals _ => Written
  | hasPendingJobs | isSystemPrincipal => Bool

end Request

/-- A program over an embedder state `σ`. -/
inductive Program (σ : Type) (α : Type) where
  | done (a : α)
  | look (next : Context → σ → Program σ α)
  | store (state : σ) (next : Program σ α)
  | ask (r : Request) (next : r.Response → Program σ α)

namespace Program

variable {σ α β γ : Type}

def bind : Program σ α → (α → Program σ β) → Program σ β
  | done a, f => f a
  | look next, f => look fun c s => (next c s).bind f
  | store s next, f => store s (next.bind f)
  | ask r next, f => ask r fun x => (next x).bind f

instance : Monad (Program σ) where
  pure := done
  bind := bind

instance [Inhabited α] : Inhabited (Program σ α) := ⟨done default⟩

@[simp] theorem pure_eq_done (a : α) : (pure a : Program σ α) = done a := rfl

@[simp] theorem done_bind (a : α) (f : α → Program σ β) : (done a >>= f) = f a := rfl

@[simp] theorem look_bind (next : Context → σ → Program σ α) (f : α → Program σ β) :
    (look next >>= f) = look fun c s => next c s >>= f := rfl

@[simp] theorem store_bind (s : σ) (next : Program σ α) (f : α → Program σ β) :
    (store s next >>= f) = store s (next >>= f) := rfl

@[simp] theorem ask_bind (r : Request) (next : r.Response → Program σ α)
    (f : α → Program σ β) : (ask r next >>= f) = ask r fun x => next x >>= f := rfl

theorem bind_done (p : Program σ α) : p.bind done = p := by
  induction p with
  | done a => rfl
  | look next ih => simp only [bind, ih]
  | store s next ih => simp only [bind, ih]
  | ask r next ih => simp only [bind, ih]

theorem bind_bind (p : Program σ α) (f : α → Program σ β) (g : β → Program σ γ) :
    (p.bind f).bind g = p.bind fun a => (f a).bind g := by
  induction p with
  | done a => rfl
  | look next ih => simp only [bind, ih]
  | store s next ih => simp only [bind, ih]
  | ask r next ih => simp only [bind, ih]

instance : LawfulMonad (Program σ) :=
  LawfulMonad.mk' _ (fun p => bind_done p) (fun _ _ => rfl) bind_bind

def context : Program σ Context :=
  look fun c _ => done c

def state : Program σ σ :=
  look fun _ s => done s

def setState (s : σ) : Program σ Unit :=
  store s (done ())

def reads (f : Context → α) : Program σ α :=
  look fun c _ => done (f c)

def act (a : Action) : Program σ a.Response :=
  ask (.act a) done

inductive Only (P : Request → Prop) : Program σ α → Prop where
  | done (a : α) : Only P (done a)
  | look {next : Context → σ → Program σ α} :
      (∀ c s, Only P (next c s)) → Only P (look next)
  | store {s : σ} {next : Program σ α} : Only P next → Only P (store s next)
  | ask {r : Request} {next : r.Response → Program σ α} :
      P r → (∀ x, Only P (next x)) → Only P (ask r next)

end Program

end ProxyEngine
