import ProxyEngine.Engine.Collector

/-!
The engine: how each request is answered. An operation on a dead object is given
up; on any other object it runs that object's method, for a proxy one dispatch
level deeper. Methods make requests of their own, so answering is recursive, and
because foreign programs may recurse without end it is driven by fuel: more
fuel never changes an answer that was reached.
-/

namespace ProxyEngine

namespace Op

/-- A construct without an object as new target is aimed at the constructor itself. -/
def normalized {s : Shape} : Op s → Op s
  | construct o args newTarget =>
    construct o args (if newTarget.isObject then newTarget else .object o)
  | op => op

end Op

namespace Engine

variable {σ : Type} {s : Shape}

/-- Calling and constructing first ask whether the object is capable of it; the answer
here is the one to end with when it is not. -/
def incapable? : Op s → Program σ (Option s.Answer)
  | .call o .. => do
    if ← Program.isCallable o then return none
    else
      let name := (← Program.context).valueText (.object o)
      some <$> Program.giveUp .value .typeError (name ++ " is not a function")
  | .construct o .. => do
    if ← Program.isConstructor o then return none
    else
      let name := (← Program.context).valueText (.object o)
      some <$> Program.giveUp .value .typeError (name ++ " is not a constructor")
  | _ => return none

def atDepth (answer : Answerer σ) (s : Shape) (body : Run σ s.Answer) : Run σ s.Answer := do
  let c ← Run.context
  if c.depth < c.maxDepth then
    Run.modifyContext fun c => { c with depth := c.depth + 1 }
    let a ← body
    Run.modifyContext fun c => { c with depth := c.depth - 1 }
    return a
  else
    (Program.giveUp s .internalError "too much recursion").run answer

def dispatch (F : Foreign σ) (answer : Answerer σ) (op : Op s) : Run σ s.Answer := do
  match (← Run.context).get? op.subject with
  | none => (Program.giveUp s .internalError "can't access dead object").run answer
  | some x =>
    match x.proxy? with
    | some p => atDepth answer s ((F.method p.handler op).run answer)
    | none => (Ordinary.method op).run answer

def perform (F : Foreign σ) (answer : Answerer σ) (op : Op s) : Run σ s.Answer := do
  match ← (incapable? op).run answer with
  | some a => return a
  | none => dispatch F answer op.normalized

def incumbentGlobal (F : Foreign σ) (q : JobQueue) : Program σ (Option ObjectId) :=
  if q.hasIncumbent then F.incumbent q.id else return some Context.global

def enqueueJob (F : Foreign σ) (q : JobQueue) (promise : Option ObjectId) (job : ObjectId)
    (site incumbent : Option ObjectId) : Attempt σ Unit := do
  if q.hasEnqueue then
    if ← Attempt.lift (F.enqueue q.id promise job site incumbent) then return ()
    else Attempt.fail
  else Attempt.failWith .internalError "job queue cannot accept promise jobs"

def writePrincipals (F : Foreign σ) (p : Principals) : Program σ Written :=
  if p.hasWrite then F.writePrincipals p.id else return { failed := true }

def hasPendingJobs (F : Foreign σ) (m : Machine σ) : Bool :=
  m.context.jobQueue.any fun q => q.hasEmpty && !F.queueIsEmpty q.id m.state

def isSystemPrincipal (F : Foreign σ) (m : Machine σ) : Bool :=
  m.context.principals.any fun p => p.hasSystem && F.isSystem p.id m.state

def step (F : Foreign σ) (answer : Answerer σ) : Answerer σ
  | .act a => Run.update a.update
  | .perform op => perform F answer op
  | .invoke h op => (F.method h op).run answer
  | .runFunction code this args =>
    atDepth answer .value ((F.function code this args).run answer)
  | .enumerateFrom o visited seen listed =>
    (Ordinary.enumerateFrom o visited seen listed).run answer
  | .collect => Collector.collect F answer
  | .incumbentGlobal q => (incumbentGlobal F q).run answer
  | .enqueueJob q promise job site incumbent =>
    (enqueueJob F q promise job site incumbent).run.run answer
  | .writePrincipals p => (writePrincipals F p).run answer
  | .hasPendingJobs => hasPendingJobs F <$> get
  | .isSystemPrincipal => isSystemPrincipal F <$> get

/-- Answers requests nested at most `fuel` deep. -/
def answer (F : Foreign σ) : (fuel : Nat) → Answerer σ
  | 0 => fun _ => Run.stop .outOfFuel
  | fuel + 1 => step F (answer F fuel)

def run {α : Type} (F : Foreign σ) (fuel : Nat) (p : Program σ α) : Run σ α :=
  p.run (answer F fuel)

def close (F : Foreign σ) (fuel : Nat) : Run σ Unit :=
  Collector.close F (answer F fuel)

end Engine

end ProxyEngine
