import ProxyEngine.Proofs.Collector.Collection
import ProxyEngine.Proofs.Engine.Twins

/-! A collection is invisible to the program. What is reachable is a region that a
collection leaves as it is, and an operation on reachable objects that runs none of the
embedder's code does not leave it. So it comes to the same whether there was a collection
before it or not; only the handle of a reported error may tell. -/

namespace ProxyEngine

variable {σ α : Type}

namespace Context

variable {c : Context}

theorem room_releaseAll (c : Context) (os : List ObjectId) :
    c.heap.room ≤ (c.releaseAll os).2.heap.room := by
  induction os generalizing c with
  | nil => exact Nat.le_refl _
  | cons o os ih =>
    rw [releaseAll_cons]
    exact (c.heap.room_release o).trans (ih (c.released o))

theorem slotCount_releaseAll (c : Context) (os : List ObjectId) :
    (c.releaseAll os).2.heap.slotCount = c.heap.slotCount := by
  induction os generalizing c with
  | nil => rfl
  | cons o os ih =>
    rw [releaseAll_cons]
    exact (ih (c.released o)).trans (c.heap.size_release o)

end Context

namespace Collector

variable {F : Foreign σ} {answer : Answerer σ} {c : Context} {visits : List Visit}
  {kept dead : List ObjectId} {s s' : σ}

/-- What can be named without naming garbage: what is reached, and dead handles. -/
def Spoken (c : Context) (visits : List Visit) (o : ObjectId) : Prop :=
  c.isLive o → Reached c visits o

theorem spoken_closed (c : Context) (visits : List Visit) : c.Closed (Spoken c visits) := by
  intro o x t spoken found here live
  have reached := spoken (Option.isSome_iff_exists.2 ⟨x, found⟩)
  exact reached.step (.held found (Object.mem_references.1 here)) live

theorem alike_swept (census : Census F c s visits kept dead s') (valid : c.heap.Valid) (st : σ) :
    c.Alike (Spoken c visits) (swept kept dead (⟨c, st⟩ : Machine σ)).context where
  objects o spoken := by
    refine (Context.releaseAll_get? c dead o).trans (if_neg fun listed => ?_)
    obtain ⟨live, lost⟩ := (census.mem_dead o).1 listed
    exact lost (spoken live)
  closed := spoken_closed c visits
  valid := valid
  valid' := ((Context.releaseAll_ages valid dead).reset).valid
  slots := Context.slotCount_releaseAll c dead
  room := Context.room_releaseAll c dead
  rest := by
    simp only [swept, Context.recordCollection]
    rw [Context.releaseAll_rest]

theorem finalizeAll_silent (silent : ∀ o h, c.handler? o = some h →
    (F.finalizer h o).Only fun _ => False) (os : List ObjectId) (s : σ) :
    ∃ s', ∀ answer, finalizeAll F answer os ⟨c, s⟩ = .ok ((), ⟨c, s'⟩) := by
  induction os generalizing s with
  | nil => exact ⟨s, fun _ => rfl⟩
  | cons o os ih =>
    cases handler : c.handler? o with
    | none =>
      obtain ⟨s', ran⟩ := ih s
      exact ⟨s', fun answer => (finalizeAll_ordinary (m := ⟨c, s⟩) handler).trans (ran answer)⟩
    | some h =>
      obtain ⟨⟨⟩, s₁, first⟩ := Program.run_of_silent (silent o h handler) ⟨c, s⟩
      obtain ⟨s', ran⟩ := ih s₁
      exact ⟨s', fun answer =>
        (finalizeAll_proxy (m := ⟨c, s⟩) handler).2 ⟨_, first answer, ran answer⟩⟩

theorem collect_silent (F : Foreign σ) {m : Machine σ} (reachable : m.context.Reachable)
    (silent : ∀ o h, m.context.handler? o = some h → (F.finalizer h o).Only fun _ => False) :
    ∃ visits kept dead s s', Census F m.context m.state visits kept dead s ∧
      ∀ fuel, Engine.answer F (fuel + 1) .collect m =
        .ok (dead.length, swept kept dead ⟨m.context, s'⟩) := by
  obtain ⟨visits, census⟩ := mark_census F reachable.valid m.state
  obtain ⟨s', ran⟩ := finalizeAll_silent silent _ _
  refine ⟨visits, _, _, _, s', census, fun fuel => collect_eq_ok.2 ⟨_, ran _, ?_, rfl⟩⟩
  have spec : _ ∧ Swept m.context _ _ ⟨m.context, s'⟩ _ :=
    swept_spec census (Context.ages_refl reachable.valid) rfl
  exact spec.1.symm

/-- An operation that names no garbage and runs none of the embedder's code comes to the
same before and after a collection whose finalizers ask for nothing. -/
theorem collection_invisible (F : Foreign σ) {m : Machine σ} (reachable : m.context.Reachable)
    (silent : ∀ o h, m.context.handler? o = some h → (F.finalizer h o).Only fun _ => False) :
    ∃ visits kept dead s m₁, Census F m.context m.state visits kept dead s ∧
      (∀ fuel, Engine.answer F (fuel + 1) .collect m = .ok (dead.length, m₁)) ∧
      ∀ {shape : Shape} (op : Op shape),
        (∀ t ∈ op.handles, m.context.isLive t → Reached m.context visits t) →
        ∀ fuel, (Engine.history F fuel (.perform op) m).Quiet →
          (∀ a m₂, Engine.issue F fuel op m = .ok (a, m₂) →
            ∃ m₂', Engine.issue F fuel op m₁ = .ok (a, m₂') ∧
              m₂.context.Indistinct (Reached m.context visits) (shape.isFailure a) m₂'.context) ∧
          (Engine.issue F fuel op m = .error .outOfFuel →
            Engine.issue F fuel op m₁ = .error .outOfFuel) := by
  obtain ⟨visits, kept, dead, s, s', census, collected⟩ := collect_silent F reachable silent
  refine ⟨visits, kept, dead, s, _, census, collected, fun {shape} op spoken fuel quiet => ?_⟩
  have alike := alike_swept census reachable.valid s'
  refine ⟨fun a m₂ ran => ?_,
    (Engine.twins_answer F fuel (r := .perform op) spoken alike quiet).of_starved⟩
  obtain ⟨m₂', ran', indistinct, -⟩ := Engine.issue_indistinct spoken _ alike
    (Reached m.context visits) (fun o reached => ⟨reached.live, alike.objects o fun _ => reached⟩)
    quiet ran
  exact ⟨m₂', ran', indistinct⟩

theorem silent_chronicle (h : Handler) (o : ObjectId) :
    (chronicle.finalizer h o).Only fun _ => False := by
  unfold Foreign.finalizer
  split
  · exact .look fun _ s => .store (.done ())
  · exact .done ()

def littered : (ObjectId × ObjectId) × Context :=
  (litter (Context.create {})).getD default

theorem littered_invisible :
    ∃ m₁, Engine.answer chronicle 1 .collect ⟨littered.2, ([], [])⟩ = .ok ((1 : Nat), m₁) ∧
      m₁.context.get? littered.1.2 = none ∧
      ∃ m₂ m₂', Engine.issue chronicle 2 (.getPrototype littered.1.1) ⟨littered.2, ([], [])⟩ =
          .ok (.ok none, m₂) ∧
        Engine.issue chronicle 2 (.getPrototype littered.1.1) m₁ = .ok (.ok none, m₂') ∧
        m₂'.context.get? littered.1.1 = m₂.context.get? littered.1.1 := by
  have made : litter (Context.create {}) = some littered := rfl
  obtain ⟨visits, kept, dead, s, m₁, -, collected, same⟩ :=
    collection_invisible chronicle (m := ⟨littered.2, ([], [])⟩)
      ⟨{}, (tightens_litter made).edits.reaches⟩ fun o h _ => silent_chronicle h o
  obtain ⟨m, one, gone⟩ : ∃ m, Except.ok (dead.length, m₁) = .ok ((1 : Nat), m) ∧
      m.context.get? littered.1.2 = none := ⟨_, (collected 0).symm.trans rfl, rfl⟩
  obtain ⟨-, rfl⟩ := Prod.mk.inj (Except.ok.inj one)
  have reached : Reached littered.2 visits littered.1.1 :=
    .root (.root (n := 1) (List.mem_singleton.2 rfl)) rfl
  obtain ⟨first, -⟩ := same (.getPrototype littered.1.1)
    (List.forall_mem_cons.2 ⟨fun _ => reached, fun _ here => nomatch here⟩) 2
    (List.all_eq_true.1 rfl)
  obtain ⟨m₂', ran', agree⟩ := first _ _ rfl
  exact ⟨m₁, (collected 0).trans one, gone, _, m₂', rfl, ran', agree.objects _ reached⟩

end Collector

end ProxyEngine
