import ProxyEngine.Proofs.Engine.Dispatch

/-! Fuel. A request that is answered with some fuel is answered in the same way with any
more, so fuel bounds the nesting of requests and does nothing else. -/

namespace ProxyEngine

variable {σ α β : Type}

/-- Unless the first run is out of fuel, both do the same. -/
def Run.Within (x y : Run σ α) : Prop :=
  ∀ m, x m = .error .outOfFuel ∨ x m = y m

namespace Run.Within

variable {x y : Run σ α} {f g : α → Run σ β}

theorem refl (x : Run σ α) : Within x x :=
  fun _ => .inr rfl

theorem bind (first : Within x y) (rest : ∀ a, Within (f a) (g a)) :
    Within (x >>= f) (y >>= g) := by
  intro m
  rcases first m with short | same
  · exact .inl (Run.bind_of_error short)
  · cases ran : y m with
    | error why =>
      right
      rw [Run.bind_of_error (same.trans ran), Run.bind_of_error ran]
    | ok result =>
      rw [Run.bind_of_ok (same.trans ran), Run.bind_of_ok ran]
      exact rest _ _

theorem eq_of_ok (within : Within x y) {m : Machine σ} {r : α × Machine σ}
    (ran : x m = .ok r) : y m = .ok r := by
  rcases within m with short | same
  · cases ran.symm.trans short
  · exact same.symm.trans ran

end Run.Within

open Run

namespace Engine

variable {answer answer' : Answerer σ} (further : ∀ r, Within (answer r) (answer' r))

include further

theorem within_program (p : Program σ α) : Within (p.run answer) (p.run answer') := by
  induction p with
  | done a => exact .refl _
  | look _ ih => exact (Within.refl get).bind fun m => ih m.context m.state
  | store s _ ih => exact (Within.refl _).bind fun _ => ih
  | ask r _ ih => exact (further r).bind ih

theorem within_atDepth {s : Shape} {body body' : Run σ s.Answer} (inner : Within body body') :
    Within (atDepth answer s body) (atDepth answer' s body') := by
  refine (Within.refl Run.context).bind fun c => ?_
  split
  · exact (Within.refl _).bind fun _ => inner.bind fun _ => .refl _
  · exact within_program further _

theorem within_dispatch (F : Foreign σ) {s : Shape} (op : Op s) :
    Within (dispatch F answer op) (dispatch F answer' op) := by
  refine (Within.refl Run.context).bind fun c => ?_
  split
  · exact within_program further _
  · split
    · exact within_atDepth further (within_program further _)
    · exact within_program further _

theorem within_perform (F : Foreign σ) {s : Shape} (op : Op s) :
    Within (perform F answer op) (perform F answer' op) := by
  refine (within_program further _).bind fun early => ?_
  cases early with
  | some a => exact .refl _
  | none => exact within_dispatch further F _

theorem within_finalizeAll (F : Foreign σ) (os : List ObjectId) :
    Within (Collector.finalizeAll F answer os) (Collector.finalizeAll F answer' os) := by
  induction os with
  | nil => exact .refl _
  | cons o rest ih =>
    refine (Within.refl Run.context).bind fun c => ?_
    cases c.handler? o with
    | some h => exact (within_program further _).bind fun _ => ih
    | none => exact ih

theorem within_collect (F : Foreign σ) :
    Within (Collector.collect F answer) (Collector.collect F answer') := by
  refine (Within.refl get).bind fun m => (Within.refl _).bind fun _ => ?_
  exact (within_finalizeAll further F _).bind fun _ => .refl _

theorem within_step (F : Foreign σ) (r : Request) :
    Within (step F answer r) (step F answer' r) := by
  cases r with
  | act | hasPendingJobs | isSystemPrincipal => exact .refl _
  | perform op => exact within_perform further F op
  | runFunction => exact within_atDepth further (within_program further _)
  | collect => exact within_collect further F
  | invoke | enumerateFrom | incumbentGlobal | enqueueJob | writePrincipals =>
    exact within_program further _

omit further

theorem answer_within (F : Foreign σ) {fuel fuel' : Nat} (more : fuel ≤ fuel') (r : Request) :
    Within (Engine.answer F fuel r) (Engine.answer F fuel' r) := by
  induction fuel generalizing fuel' r with
  | zero => exact fun _ => .inl rfl
  | succ fuel ih =>
    obtain ⟨fuel', rfl⟩ := Nat.exists_eq_add_of_lt more
    exact within_step (fun r => ih (by omega) r) F r

/-- An answer that was reached with some fuel is reached with any more. -/
theorem answer_of_more (F : Foreign σ) {fuel fuel' : Nat} (more : fuel ≤ fuel') {r : Request}
    {m m' : Machine σ} {x : r.Response} (answered : Engine.answer F fuel r m = .ok (x, m')) :
    Engine.answer F fuel' r m = .ok (x, m') :=
  (answer_within F more r).eq_of_ok answered

end Engine

end ProxyEngine
