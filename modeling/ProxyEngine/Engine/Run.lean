import ProxyEngine.Foreign

/-!
Runs of programs on a machine, which is a context together with the embedder's
state. A run needs an answerer for requests; it stops without a result when the
answerer runs out of fuel or the heap is full, and nothing else stops it.
-/

namespace ProxyEngine

structure Machine (σ : Type) where
  context : Context
  state : σ

inductive Stop where
  | outOfFuel
  | heapFull
  deriving DecidableEq

abbrev Run (σ : Type) := StateT (Machine σ) (Except Stop)

abbrev Answerer (σ : Type) := (r : Request) → Run σ r.Response

namespace Run

variable {σ α : Type}

def stop (why : Stop) : Run σ α :=
  fun _ => .error why

def context : Run σ Context :=
  Machine.context <$> get

def modifyContext (f : Context → Context) : Run σ Unit :=
  modify fun m => { m with context := f m.context }

def update (u : Update α) : Run σ α := fun m =>
  match u m.context with
  | some (a, c) => .ok (a, { m with context := c })
  | none => .error .heapFull

@[simp] theorem stop_apply (why : Stop) (m : Machine σ) :
    (stop why : Run σ α) m = .error why := rfl

theorem update_of_some {u : Update α} {m : Machine σ} {a : α} {c : Context}
    (h : u m.context = some (a, c)) : update u m = .ok (a, { m with context := c }) := by
  simp [update, h]

end Run

namespace Program

variable {σ α : Type}

def run (answer : Answerer σ) : Program σ α → Run σ α
  | done a => pure a
  | look next => do
    let m ← get
    (next m.context m.state).run answer
  | store s next => do
    modify fun m => { m with state := s }
    next.run answer
  | ask r next => do
    let x ← answer r
    (next x).run answer

@[simp] theorem run_done (answer : Answerer σ) (a : α) :
    (done a : Program σ α).run answer = pure a := rfl

theorem run_bind {β : Type} (answer : Answerer σ) (p : Program σ α) (f : α → Program σ β) :
    (p >>= f).run answer = p.run answer >>= fun a => (f a).run answer := by
  induction p with
  | done a => simp
  | look next ih => simp only [look_bind, run, ih, bind_assoc]
  | store s next ih => simp only [store_bind, run, ih, bind_assoc]
  | ask r next ih => simp only [ask_bind, run, ih, bind_assoc]

end Program

end ProxyEngine
