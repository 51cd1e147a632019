import ProxyEngine.Proofs.Collector.Collection
import ProxyEngine.Proofs.Engine.Dispatch
import ProxyEngine.Proofs.Engine.History

/-! How runs are composed. A run of the engine is built from smaller runs in a few
ways: one after the other, with a request or a body around it, one dispatch level
further down, and as a collection. An account is something said of runs: of where
a run starts, what happens and how it ends. An account that respects each of these
ways is true of every run. This is the only induction on fuel that is needed;
foreign code is bound only in what it may ask for. -/

namespace ProxyEngine

variable {σ α β : Type}

structure Foreign.Only (F : Foreign σ) (P : Request → Prop) : Prop where
  trap : ∀ {s : Shape} (id : TableId) (op : Op s) (out : s.Out), (F.trap id op out).Only P
  finalize : ∀ id o, (F.finalize id o).Only P
  function : ∀ code this args, (F.function code this args).Only P
  incumbent : ∀ id, (F.incumbent id).Only P
  enqueue : ∀ id promise job site incumbent, (F.enqueue id promise job site incumbent).Only P
  writePrincipals : ∀ id, (F.writePrincipals id).Only P

theorem Foreign.only_any (F : Foreign σ) : F.Only fun _ => True :=
  ⟨fun _ _ _ => .any _, fun _ _ => .any _, fun _ _ _ => .any _, fun _ => .any _,
    fun _ _ _ _ _ => .any _, fun _ => .any _⟩

theorem Foreign.only_idle (P : Request → Prop) : (idle : Foreign σ).Only P :=
  ⟨fun _ _ _ => .done _, fun _ _ => .done _, fun _ _ _ => .done _, fun _ => .done _,
    fun _ _ _ _ _ => .done _, fun _ => .done _⟩

namespace Foreign.Only

variable {F : Foreign σ} {P : Request → Prop} (foreign : F.Only P)

include foreign

theorem finalizer (h : Handler) (o : ObjectId) : (F.finalizer h o).Only P := by
  unfold Foreign.finalizer
  split
  · exact foreign.finalize _ o
  · exact .done ()

theorem method_of_builtin {s : Shape} {h : Handler} {op : Op s}
    (builtin : (h.base.method op : Program σ s.Answer).Only P) : (F.method h op).Only P := by
  cases trapped : h.trapped? op.slot with
  | some id =>
    rw [F.method_of_filled trapped]
    exact (foreign.trap id op.handed s.initial).map _
  | none =>
    rw [F.method_of_empty trapped]
    exact builtin

theorem enqueueJob_of_reports (reports : ∀ kind message, P (.act (.report kind message)))
    (q : JobQueue) (promise : Option ObjectId) (job : ObjectId) (site incumbent : Option ObjectId) :
    (Engine.enqueueJob F q promise job site incumbent).run.Only P := by
  unfold Engine.enqueueJob
  split
  · rw [ExceptT.run_bind]
    refine ((foreign.enqueue q.id promise job site incumbent).map Except.ok).bind fun accepted => ?_
    rcases accepted with _ | _ | _ <;> exact .done _
  · exact .ask (reports _ _) fun _ => .done _

theorem incumbentGlobal (q : JobQueue) : (Engine.incumbentGlobal F q).Only P := by
  unfold Engine.incumbentGlobal
  split
  · exact foreign.incumbent q.id
  · exact .done _

theorem principals (p : Principals) : (Engine.writePrincipals F p).Only P := by
  unfold Engine.writePrincipals
  split
  · exact foreign.writePrincipals p.id
  · exact .done _

variable (builtin : ∀ r : Request, r.Builtin → P r)

include builtin

theorem method {s : Shape} (h : Handler) (op : Op s) : (F.method h op).Only P :=
  foreign.method_of_builtin ((BaseHandler.propagates_method h.base op).only.mono builtin)

theorem enqueueJob (q : JobQueue) (promise : Option ObjectId) (job : ObjectId)
    (site incumbent : Option ObjectId) :
    (Engine.enqueueJob F q promise job site incumbent).run.Only P :=
  foreign.enqueueJob_of_reports (fun _ _ => builtin _ trivial) q promise job site incumbent

end Foreign.Only

/-- Something said of runs: of the machine at the start, the history and the end. -/
abbrev Account (σ : Type) :=
  {α : Type} → Machine σ → History → Except Stop (α × Machine σ) → Prop

structure Chains (Φ : Account σ) : Prop where
  pure : ∀ {α : Type} (a : α) (m : Machine σ), Φ m [] ((Pure.pure a : Run σ α) m)
  store : ∀ {α : Type} {m : Machine σ} {s : σ} {t : History}
    {ran : Except Stop (α × Machine σ)}, Φ { m with state := s } t ran → Φ m t ran
  bind : ∀ {α β : Type} {m : Machine σ} {t : History} {x : Run σ α} {f : α → Run σ β}
    {rest : α → Machine σ → History}, x.Returns → Φ m t (x m) →
    (∀ a m₁, Φ m₁ (rest a m₁) (f a m₁)) → Φ m (t.andThen (x m) rest) ((x >>= f) m)

/-- Neither an action nor a collection, so that all that happens happens in programs. -/
def Request.Composite : Request → Prop
  | act _ | collect => False
  | _ => True

def Body.isFinalizer : Body → Bool
  | finalizer .. => true
  | _ => false

/-- The account respects everything that runs are built from. -/
structure Composes (F : Foreign σ) (P : Request → Prop) (Φ : Account σ) : Prop
    extends Chains Φ where
  builtin : ∀ r, r.Builtin → P r
  unanswered : ∀ {r : Request} (m : Machine σ), P r →
    Φ m [m.moment (.asked r)] (.error .outOfFuel : Except Stop (r.Response × Machine σ))
  act : ∀ {a : Action} (m : Machine σ), P (.act a) →
    Φ m (.around (.asked (.act a)) (fun _ => .answered (.act a)) (Run.update a.update)
      (fun _ => []) m) (Run.update a.update m)
  request : ∀ {r : Request} {x : Run σ r.Response} {inner : Machine σ → History}
    {m : Machine σ}, P r → r.Composite → Φ m (inner m) (x m) →
    Φ m (.around (.asked r) (fun _ => .answered r) x inner m) (x m)
  body : ∀ {α : Type} {b : Body} {fails : α → Bool} {x : Run σ α}
    {inner : Machine σ → History} {m : Machine σ}, b.isFinalizer = false → Φ m (inner m) (x m) →
    Φ m (.around (.started b) (fun a => .ended b (fails a)) x inner m) (x m)
  nested : ∀ {α : Type} {x : Run σ α} {t : History} {m : Machine σ},
    m.context.depth < m.context.maxDepth → Φ (m.deeper 1) t (x (m.deeper 1)) →
    Φ m t.below (x.nested 1 m)
  collect : ∀ {fuel : Nat} (m : Machine σ), P .collect →
    (∀ h o m, Φ m (Engine.runHistory F fuel (F.finalizer h o) m)
      (Engine.run F fuel (F.finalizer h o) m)) →
    Φ m (Engine.history F (fuel + 1) .collect m) (Engine.answer F (fuel + 1) .collect m)

theorem Chains.finalizeAll {Φ : Account σ} (chains : Chains Φ) {F : Foreign σ} {fuel : Nat}
    (bodies : ∀ h o m, m.context.handler? o = some h → Φ m
      (Engine.bodyHistory (Engine.answer F fuel) (Engine.history F fuel) (.finalizer h o)
        (fun _ => false) (F.finalizer h o) m)
      (Engine.run F fuel (F.finalizer h o) m))
    (os : List ObjectId) (m : Machine σ) :
    Φ m (Engine.finalizeHistory F (Engine.answer F fuel) (Engine.history F fuel) os m)
      (Collector.finalizeAll F (Engine.answer F fuel) os m) := by
  induction os generalizing m with
  | nil => exact chains.pure () m
  | cons o os ih =>
    unfold Engine.finalizeHistory Collector.finalizeAll
    rw [Run.bind_context]
    cases handler : m.context.handler? o with
    | none => exact ih m
    | some h =>
      have returns : (Engine.run F fuel (F.finalizer h o)).Returns :=
        Program.run_returns (Engine.answer_returns F fuel) _
      exact chains.bind returns (bodies h o m handler) fun _ m₁ => ih m₁

namespace Composes

variable {F : Foreign σ} {P : Request → Prop} {Φ : Account σ} (composes : Composes F P Φ)

include composes

section

variable {answer : Answerer σ} {asked : Request → Machine σ → History}
  (returns : ∀ r, (answer r).Returns) (answers : ∀ r m, P r → Φ m (asked r m) (answer r m))

include returns answers

theorem program {p : Program σ α} (only : p.Only P) (m : Machine σ) :
    Φ m (p.history answer asked m) (p.run answer m) := by
  induction only generalizing m with
  | done a => exact composes.pure a m
  | look _ ih => exact ih m.context m.state m
  | @store s next _ ih => exact composes.store (ih { m with state := s })
  | @ask r next holds _ ih =>
    exact composes.bind (returns r) (answers r m holds) fun x m₁ => ih x m₁

theorem propagating {fails : α → Bool} {p : Program σ α} (propagates : p.Propagates fails)
    (m : Machine σ) : Φ m (p.history answer asked m) (p.run answer m) :=
  composes.program returns answers (propagates.only.mono composes.builtin) m

theorem atDepth {s : Shape} {p : Program σ s.Answer} (only : p.Only P) {b : Body}
    (entered : b.isFinalizer = false) (m : Machine σ) :
    Φ m (Engine.depthHistory answer asked s b p m)
      (Engine.atDepth answer s (p.run answer) m) := by
  unfold Engine.depthHistory
  by_cases room : m.context.depth < m.context.maxDepth
  · rw [if_pos room, Engine.atDepth_of_room room]
    exact composes.nested room
      (composes.body entered (composes.program returns answers only (m.deeper 1)))
  · rw [if_neg room, Engine.atDepth_of_full room]
    exact composes.propagating returns answers (Program.propagates_giveUp ..) m

variable (foreign : F.Only P)

include foreign

theorem dispatch {s : Shape} (op : Op s) (m : Machine σ) :
    Φ m (Engine.dispatchHistory F answer asked op m) (Engine.dispatch F answer op m) := by
  unfold Engine.dispatchHistory Engine.dispatch
  rw [Run.bind_context]
  cases m.context.get? op.subject with
  | none => exact composes.propagating returns answers (Program.propagates_giveUp ..) m
  | some x =>
    dsimp only
    cases x.proxy? with
    | none => exact composes.propagating returns answers (Ordinary.propagates_method op) m
    | some p =>
      exact composes.atDepth returns answers (foreign.method composes.builtin p.handler op) rfl m

theorem perform {s : Shape} (op : Op s) (m : Machine σ) :
    Φ m (Engine.performHistory F answer asked op m) (Engine.perform F answer op m) := by
  refine composes.bind (Program.run_returns returns _)
    (composes.propagating returns answers (Engine.propagates_incapable? op) m) fun early m₁ => ?_
  cases early with
  | some a => exact composes.pure a m₁
  | none => exact composes.dispatch returns answers foreign _ m₁

theorem step {r : Request} (composite : r.Composite) (m : Machine σ) :
    Φ m (Engine.stepHistory F answer asked r m) (Engine.step F answer r m) := by
  have program {α : Type} {p : Program σ α} (only : p.Only P) :=
    composes.program returns answers only m
  cases r with
  | act a => exact absurd composite id
  | collect => exact absurd composite id
  | perform op => exact composes.perform returns answers foreign op m
  | invoke h op => exact composes.body rfl (program (foreign.method composes.builtin h op))
  | runFunction code this args =>
    exact composes.atDepth returns answers (foreign.function code this args) rfl m
  | enumerateFrom o visited seen listed =>
    exact composes.propagating returns answers
      (Ordinary.propagates_enumerateFrom o visited seen listed) m
  | incumbentGlobal q => exact program (foreign.incumbentGlobal q)
  | enqueueJob q promise job site incumbent =>
    exact program (foreign.enqueueJob composes.builtin q promise job site incumbent)
  | writePrincipals p => exact program (foreign.principals p)
  | hasPendingJobs => exact composes.pure (Engine.hasPendingJobs F m) m
  | isSystemPrincipal => exact composes.pure (Engine.isSystemPrincipal F m) m

end

variable (foreign : F.Only P)

include foreign

/-- The account is true of every request. -/
theorem answer (fuel : Nat) {r : Request} (holds : P r) (m : Machine σ) :
    Φ m (Engine.history F fuel r m) (Engine.answer F fuel r m) := by
  induction fuel generalizing r m with
  | zero => exact composes.unanswered m holds
  | succ fuel ih =>
    have returns := Engine.answer_returns F fuel
    have answers : ∀ r m, P r → Φ m (Engine.history F fuel r m) (Engine.answer F fuel r m) :=
      fun r m holds => ih holds m
    have composite (composite : r.Composite) :
        Φ m (Engine.history F (fuel + 1) r m) (Engine.answer F (fuel + 1) r m) :=
      composes.request holds composite (composes.step returns answers foreign composite m)
    cases r with
    | act a => exact composes.act m holds
    | collect =>
      exact composes.collect m holds fun h o m =>
        composes.program returns answers (foreign.finalizer h o) m
    | _ => exact composite trivial

theorem run (fuel : Nat) {p : Program σ α} (only : p.Only P) (m : Machine σ) :
    Φ m (Engine.runHistory F fuel p m) (Engine.run F fuel p m) :=
  composes.program (Engine.answer_returns F fuel)
    (fun _ m holds => composes.answer foreign fuel holds m) only m

end Composes

end ProxyEngine
