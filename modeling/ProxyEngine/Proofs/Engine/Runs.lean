import ProxyEngine.Proofs.Context.Ageing
import ProxyEngine.Proofs.Engine.Nesting

/-! What every run of the engine has in common. A program reaches the context
through requests only, and answering a request is again such a run, so one
induction on fuel shows that whatever runs, foreign code included, takes the
context along its steps and brings it back to the dispatch depth it started at. -/

namespace ProxyEngine

namespace Context

/-- Reached by steps that leave as many dispatch levels as they enter. -/
def Returns (c c' : Context) : Prop :=
  c.Reaches c' ∧ c'.depth = c.depth

variable {c c' c'' : Context}

theorem Returns.refl (c : Context) : c.Returns c :=
  ⟨Relation.ReflTransGen.refl, rfl⟩

theorem Returns.trans (first : c.Returns c') (second : c'.Returns c'') : c.Returns c'' :=
  ⟨Relation.ReflTransGen.trans first.1 second.1, second.2.trans first.2⟩

theorem Edits.returns (edits : c.Edits c') : c.Returns c' :=
  ⟨edits.reaches, edits.depth⟩

theorem Returns.enclosed (room : c.depth < c.maxDepth)
    (body : { c with depth := c.depth + 1 }.Returns c') :
    c.Returns { c' with depth := c'.depth - 1 } := by
  obtain ⟨reaches, depth⟩ := body
  refine ⟨.head (.enter room) (.tail reaches .leave), ?_⟩
  show c'.depth - 1 = c.depth
  rw [depth]
  exact Nat.add_sub_cancel ..

theorem Returns.swept (returns : c.Returns c') (dead : List ObjectId) (marked : Nat) :
    c.Returns ((c'.releaseAll dead).2.recordCollection marked (c'.releaseAll dead).1) := by
  refine ⟨.tail returns.1 (.sweep dead marked), ?_⟩
  rw [releaseAll_rest]
  exact returns.2

end Context

namespace Run

variable {σ α β : Type} {m m' : Machine σ}

/-- Whenever the run ends, the context has returned. -/
def Returns (x : Run σ α) : Prop :=
  ∀ ⦃m a m'⦄, x m = .ok (a, m') → m.context.Returns m'.context

theorem Returns.pure (a : α) : Returns (pure a : Run σ α) := by
  rintro m _ _ ⟨⟩
  exact .refl _

theorem Returns.bind {x : Run σ α} {f : α → Run σ β} (first : Returns x)
    (rest : ∀ a, Returns (f a)) : Returns (x >>= f) := by
  intro m b m' ran
  obtain ⟨a, m₁, ran, more⟩ := bind_eq_ok.1 ran
  exact (first ran).trans (rest a more)

theorem Returns.map {x : Run σ α} (returns : Returns x) (f : α → β) : Returns (f <$> x) := by
  rw [map_eq_pure_bind]
  exact returns.bind fun a => .pure _

theorem returns_get : Returns (get : Run σ (Machine σ)) := by
  rintro m _ _ ⟨⟩
  exact .refl _

theorem returns_context : Returns (context : Run σ Context) :=
  returns_get.map _

theorem returns_state (f : Machine σ → σ) :
    Returns (modify fun m => { m with state := f m } : Run σ Unit) := by
  rintro m _ _ ⟨⟩
  exact .refl _

theorem returns_update {u : Update α} (edits : u.Edits) : Returns (update u : Run σ α) := by
  intro m a m' ran
  unfold update at ran
  split at ran
  next a' c answered =>
    cases ran
    exact (edits answered).returns
  next => cases ran

end Run

theorem Program.run_returns {σ α : Type} {answer : Answerer σ} (answers : ∀ r, (answer r).Returns)
    (p : Program σ α) : (p.run answer).Returns := by
  induction p with
  | done a => exact .pure a
  | look next ih => exact Run.returns_get.bind fun m => ih m.context m.state
  | store s next ih => exact (Run.returns_state fun _ => s).bind fun _ => ih
  | ask r next ih => exact (answers r).bind ih

section

variable {σ : Type} {F : Foreign σ} {answer : Answerer σ}

theorem Collector.finalizeAll_returns (answers : ∀ r, (answer r).Returns) (os : List ObjectId) :
    (finalizeAll F answer os).Returns := by
  induction os with
  | nil => exact .pure ()
  | cons o os ih =>
    refine Run.returns_context.bind fun c => ?_
    cases c.handler? o with
    | none => exact ih
    | some h => exact (Program.run_returns answers _).bind fun _ => ih

theorem Collector.collect_returns (answers : ∀ r, (answer r).Returns) :
    (collect F answer).Returns := by
  intro m n m' ran
  obtain ⟨_, _, ⟨⟩, ran⟩ := Run.bind_eq_ok.1 ran
  obtain ⟨_, _, ⟨⟩, ran⟩ := Run.bind_eq_ok.1 ran
  obtain ⟨_, mid, finalized, ran⟩ := Run.bind_eq_ok.1 ran
  cases ran
  exact (finalizeAll_returns answers _ finalized).swept _ _

namespace Engine

theorem atDepth_returns (answers : ∀ r, (answer r).Returns) {s : Shape} {body : Run σ s.Answer}
    (returns : body.Returns) : (atDepth answer s body).Returns := by
  intro m a m' ran
  obtain ⟨_, _, ⟨⟩, ran⟩ := Run.bind_eq_ok.1 ran
  split at ran
  next room =>
    obtain ⟨_, _, ⟨⟩, ran⟩ := Run.bind_eq_ok.1 ran
    obtain ⟨a', mid, answered, ran⟩ := Run.bind_eq_ok.1 ran
    cases ran
    exact (returns answered).enclosed room
  next => exact Program.run_returns answers _ ran

theorem dispatch_returns (answers : ∀ r, (answer r).Returns) {s : Shape} (op : Op s) :
    (dispatch F answer op).Returns := by
  refine Run.returns_context.bind fun c => ?_
  cases c.get? op.subject with
  | none => exact Program.run_returns answers _
  | some x =>
    dsimp only
    cases x.proxy? with
    | none => exact Program.run_returns answers _
    | some p => exact atDepth_returns answers (Program.run_returns answers _)

theorem perform_returns (answers : ∀ r, (answer r).Returns) {s : Shape} (op : Op s) :
    (perform F answer op).Returns := by
  refine (Program.run_returns answers _).bind fun early => ?_
  cases early with
  | some a => exact .pure a
  | none => exact dispatch_returns answers _

theorem step_returns (answers : ∀ r, (answer r).Returns) (r : Request) :
    (step F answer r).Returns := by
  cases r with
  | act a => exact Run.returns_update a.edits
  | perform op => exact perform_returns answers op
  | runFunction code this args => exact atDepth_returns answers (Program.run_returns answers _)
  | collect => exact Collector.collect_returns answers
  | hasPendingJobs => exact Run.returns_get.map _
  | isSystemPrincipal => exact Run.returns_get.map _
  | _ => exact Program.run_returns answers _

/-- Whatever is asked of the engine, its context only takes steps and returns. -/
theorem answer_returns (F : Foreign σ) (fuel : Nat) (r : Request) :
    (Engine.answer F fuel r).Returns := by
  induction fuel generalizing r with
  | zero => rintro m a m' ⟨⟩
  | succ fuel ih => exact step_returns ih r

theorem run_reachable {fuel : Nat} {α : Type} {p : Program σ α} {m m' : Machine σ} {a : α}
    (ran : Engine.run F fuel p m = .ok (a, m')) (reachable : m.context.Reachable) :
    m'.context.Reachable :=
  reachable.trans (Program.run_returns (answer_returns F fuel) p ran).1

end Engine

end

def Foreign.idle {σ : Type} : Foreign σ where
  trap _ _ out := return ⟨true, out⟩
  finalize _ _ := return ()
  trace _ _ s := ([], s)
  function _ _ _ := return Except.ok .undefined
  incumbent _ := return none
  enqueue _ _ _ _ _ := return true
  queueIsEmpty _ _ := true
  writePrincipals _ := return {}
  isSystem _ _ := false

end ProxyEngine
