import ProxyEngine.Behaviour.Ordinary

/-!
Operations by name and in strict form. A strict caller turns a refusal into a
pending error that names the key or speaks of the object; the callbacks of a
context are reached through what is installed on it.
-/

namespace ProxyEngine.Attempt

variable {σ : Type}

def checkStrict (outcome : Outcome) (k : PropertyKey) : Attempt σ Unit := do
  if outcome.isOk then return ()
  else
    failWith .typeError
      ("property " ++ (← context).keyText k ++ " " ++ outcome.reason)

def checkStrictObject (outcome : Outcome) : Attempt σ Unit := do
  if outcome.isOk then return ()
  else failWith .typeError ("object " ++ outcome.reason)

def getProperty (o : ObjectId) (name : String) : Attempt σ Value := do
  get o (.object o) (← key name)

def setProperty (o : ObjectId) (name : String) (v : Value) : Attempt σ Unit := do
  let k ← key name
  checkStrict (← set o k v (.object o)) k

def defineData (o : ObjectId) (name : String) (v : Value) (attrs : Attributes) :
    Attempt σ Unit := do
  let k ← key name
  checkStrict (← defineProperty o k (.ofData v attrs)) k

def enqueuePromiseJob (promise : Option ObjectId) (job : ObjectId) (site : Option ObjectId) :
    Attempt σ Unit := do
  match (← context).jobQueue with
  | none => failWith .internalError "no job queue installed"
  | some q =>
    let incumbent ← lift (Program.incumbentGlobal q)
    of (Program.ask (.enqueueJob q promise job site incumbent) .done)

end ProxyEngine.Attempt

namespace ProxyEngine.Program

variable {σ : Type}

def writePrincipals : Program σ Written := do
  match (← context).principals with
  | some p => ask (.writePrincipals p) done
  | none =>
    report .error "context has no principals"
    return { failed := true }

end ProxyEngine.Program
