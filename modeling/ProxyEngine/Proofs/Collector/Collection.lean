import Mathlib.Data.List.Nodup
import ProxyEngine.Proofs.Collector.Marking
import ProxyEngine.Proofs.Engine.Runs

/-! A full collection frees exactly what is unreachable. Finalizers run between
marking and freeing and may change the heap in any way; as long as none of them
collects, no object dies under them and every proxy keeps its handler, so all of
them run on the heap that was marked, the new objects apart. -/

namespace ProxyEngine

namespace Collector

variable {σ : Type} {F : Foreign σ} {answer : Answerer σ} {c : Context}

/-- What a collection finds out about a context: what is reachable along stored edges
and those its trace traps reported, and what is not. -/
structure Census (F : Foreign σ) (c : Context) (s : σ) (visits : List Visit)
    (kept dead : List ObjectId) (s' : σ) : Prop where
  traced : Traced F c s visits s'
  visited_nodup : (visits.map Visit.proxy).Nodup
  mem_visited : ∀ o, o ∈ visits.map Visit.proxy ↔ c.isProxy o ∧ Reached c visits o
  kept_nodup : kept.Nodup
  mem_kept : ∀ o, o ∈ kept ↔ Reached c visits o
  dead_sorted : dead.Pairwise (·.slot < ·.slot)
  mem_dead : ∀ o, o ∈ dead ↔ c.isLive o ∧ ¬ Reached c visits o

/-- Finalizers of proxies run one after the other, each once; handlers as on `c`. -/
inductive Finalized (F : Foreign σ) (answer : Answerer σ) (c : Context) :
    List ObjectId → Machine σ → Machine σ → Prop
  | nil (m : Machine σ) : Finalized F answer c [] m m
  | cons {o : ObjectId} {os : List ObjectId} {h : Handler} {m m₁ m₂ : Machine σ} :
      c.handler? o = some h → (F.finalizer h o).run answer m = .ok ((), m₁) →
      Finalized F answer c os m₁ m₂ → Finalized F answer c (o :: os) m m₂

/-- The machine after freeing the dead, when finalizers have left `mid`. -/
structure Swept (c : Context) (kept dead : List ObjectId) (mid m' : Machine σ) : Prop where
  state : m'.state = mid.state
  rest : m'.context = { mid.context with heap := m'.context.heap, stats := m'.context.stats }
  freed : ∀ o ∈ dead, m'.context.get? o = none
  untouched : ∀ o, o ∉ dead → m'.context.get? o = mid.context.get? o
  live : ∀ o, m'.context.isLive o ↔ o ∈ kept ∨ mid.context.isLive o ∧ ¬ c.isLive o
  stats : m'.context.stats =
    { collections := c.stats.collections + 1
      lastReclaimed := dead.length
      totalReclaimed := c.stats.totalReclaimed + dead.length
      lastMarked := kept.length }

/-! Marking the whole heap. -/

def unmarked (c : Context) (marking : Marking σ) : List ObjectId :=
  c.heap.ids.filter fun o => !marking.marked.contains o

theorem Marks.mem_iff_reached {work new : List ObjectId} {visits : List Visit} {s s' : σ}
    (marks : Marks F c work [] new visits s s') (roots : ∀ o, o ∈ work ↔ c.Rooted o)
    {o : ObjectId} : o ∈ new ↔ Reached c visits o := by
  constructor
  · refine marks.least (Reached c visits) (fun p listed live => ?_) (fun _ _ => .step) o
    exact .root ((roots p).1 listed) live
  · intro reached
    induction reached with
    | root rooted live => simpa using marks.work_marked _ ((roots _).2 rooted) live
    | step before leads live marked => simpa using marks.closed _ _ marked leads live

theorem mark_census (F : Foreign σ) (valid : c.heap.Valid) (s : σ) :
    let marking := mark F c.heap c.heap.live c.markRoots { state := s }
    ∃ visits, Census F c s visits marking.marked (unmarked c marking) marking.state := by
  intro marking
  obtain ⟨new, visits, s', marked, marks⟩ := mark_marks F c c.heap.live c.markRoots [] s
    List.nodup_nil (by simp) (by simp [valid.live_eq])
  have result : marking = ⟨new, s'⟩ := by simpa using marked
  have reached : ∀ o, o ∈ new ↔ Reached c visits o := fun o =>
    marks.mem_iff_reached fun p => Context.mem_markRoots
  have nodup : new.Nodup := by simpa using marks.nodup
  rw [result]
  refine ⟨visits, marks.traced, ?_, fun o => ?_, nodup, reached, ?_, fun o => ?_⟩
  · rw [marks.visited]
    exact (List.nodup_reverse.2 nodup).filter _
  · rw [marks.visited, List.mem_filter, List.mem_reverse, reached, and_comm]
  · exact c.heap.ids_sorted.filter _
  · rw [← reached, unmarked, List.mem_filter, Heap.mem_ids]
    simp [Context.isLive]

/-! Running the finalizers. -/

theorem Finalized.returns (answers : ∀ r, (answer r).Returns) {os : List ObjectId}
    {m m' : Machine σ} (finalized : Finalized F answer c os m m') :
    m.context.Returns m'.context := by
  induction finalized with
  | nil m => exact .refl _
  | cons handler ran _ ih => exact (Program.run_returns answers _ ran).trans ih

theorem handler?_kept (valid : c.heap.Valid) {c₁ c₂ : Context} (past : c.Reaches c₁)
    (future : c₁.Reaches c₂) (quiet : c₂.stats.collections = c.stats.collections)
    {o : ObjectId} (live : c.isLive o) : c₁.isLive o ∧ c₁.handler? o = c.handler? o := by
  have first := past.ages valid
  have second := future.ages first.heap.valid
  have same : c₁.stats.collections = c.stats.collections := by
    have := first.collections
    have := second.collections
    omega
  have alive := (first.quiet same).2 o live
  exact ⟨alive, first.handler?_of_live live alive⟩

theorem finalized_ordinary {o : ObjectId} {os : List ObjectId} {m mid : Machine σ}
    (ordinary : c.handler? o = none) :
    Finalized F answer c ((o :: os).filter c.isProxy) m mid ↔
      Finalized F answer c (os.filter c.isProxy) m mid := by
  simp [Context.isProxy_eq, ordinary]

theorem finalized_proxy {o : ObjectId} {os : List ObjectId} {m mid : Machine σ} {h : Handler}
    (handler : c.handler? o = some h) :
    Finalized F answer c ((o :: os).filter c.isProxy) m mid ↔
      ∃ m₁, (F.finalizer h o).run answer m = .ok ((), m₁) ∧
        Finalized F answer c (os.filter c.isProxy) m₁ mid := by
  rw [List.filter_cons, if_pos (by simp [Context.isProxy_eq, handler])]
  constructor
  · intro finalized
    obtain _ | ⟨handler', ran, rest⟩ := finalized
    rw [handler, Option.some.injEq] at handler'
    subst handler'
    exact ⟨_, ran, rest⟩
  · rintro ⟨m₁, ran, rest⟩
    exact .cons handler ran rest

theorem finalizeAll_ordinary {o : ObjectId} {os : List ObjectId} {m : Machine σ}
    (ordinary : m.context.handler? o = none) :
    finalizeAll F answer (o :: os) m = finalizeAll F answer os m := by
  rw [finalizeAll, Run.bind_context, ordinary]

theorem finalizeAll_proxy {o : ObjectId} {os : List ObjectId} {m mid : Machine σ} {h : Handler}
    (handler : m.context.handler? o = some h) :
    finalizeAll F answer (o :: os) m = .ok ((), mid) ↔
      ∃ m₁, (F.finalizer h o).run answer m = .ok ((), m₁) ∧
        finalizeAll F answer os m₁ = .ok ((), mid) := by
  rw [finalizeAll, Run.bind_context, handler]
  refine Run.bind_eq_ok.trans ⟨?_, ?_⟩
  · rintro ⟨_, m₁, both⟩
    exact ⟨m₁, both⟩
  · rintro ⟨m₁, both⟩
    exact ⟨(), m₁, both⟩

theorem finalizeAll_iff_finalized (answers : ∀ r, (answer r).Returns) (valid : c.heap.Valid)
    {os : List ObjectId} (live : ∀ o ∈ os, c.isLive o) {m mid : Machine σ}
    (past : c.Reaches m.context) (quiet : mid.context.stats.collections = c.stats.collections) :
    finalizeAll F answer os m = .ok ((), mid) ↔
      Finalized F answer c (os.filter c.isProxy) m mid := by
  induction os generalizing m with
  | nil =>
    constructor
    · rintro ⟨⟩
      exact .nil _
    · rintro ⟨⟩
      rfl
  | cons o os ih =>
    have later : ∀ m₁, c.Reaches m₁.context → (finalizeAll F answer os m₁ = .ok ((), mid) ↔
        Finalized F answer c (os.filter c.isProxy) m₁ mid) :=
      fun m₁ past => ih (fun p listed => live p (.tail _ listed)) past
    have same : m.context.Reaches mid.context → m.context.handler? o = c.handler? o :=
      fun future => (handler?_kept valid past future quiet (live o (.head _))).2
    have next : ∀ h m₁, (F.finalizer h o).run answer m = .ok ((), m₁) → c.Reaches m₁.context :=
      fun h m₁ ran => Relation.ReflTransGen.trans past (Program.run_returns answers _ ran).1
    constructor
    · intro ran
      have kept := same (finalizeAll_returns answers _ ran).1
      cases handler : c.handler? o with
      | none =>
        rw [finalizeAll_ordinary (kept.trans handler)] at ran
        exact (finalized_ordinary handler).2 ((later m past).1 ran)
      | some h =>
        obtain ⟨m₁, first, rest⟩ := (finalizeAll_proxy (kept.trans handler)).1 ran
        exact (finalized_proxy handler).2 ⟨m₁, first, (later m₁ (next h m₁ first)).1 rest⟩
    · intro finalized
      have kept := same (finalized.returns answers).1
      cases handler : c.handler? o with
      | none =>
        rw [finalizeAll_ordinary (kept.trans handler)]
        exact (later m past).2 ((finalized_ordinary handler).1 finalized)
      | some h =>
        obtain ⟨m₁, first, rest⟩ := (finalized_proxy handler).1 finalized
        exact (finalizeAll_proxy (kept.trans handler)).2
          ⟨m₁, first, (later m₁ (next h m₁ first)).2 rest⟩

/-! Freeing the dead. -/

def swept (kept dead : List ObjectId) (mid : Machine σ) : Machine σ :=
  let (reclaimed, c) := mid.context.releaseAll dead
  { mid with context := c.recordCollection kept.length reclaimed }

theorem collect_eq_ok {m m' : Machine σ} {n : Nat} :
    let marking :=
      mark F m.context.heap m.context.heap.live m.context.markRoots { state := m.state }
    let dead := unmarked m.context marking
    collect F answer m = .ok (n, m') ↔
      ∃ mid, finalizeAll F answer dead { m with state := marking.state } = .ok ((), mid) ∧
        n = (mid.context.releaseAll dead).1 ∧ m' = swept marking.marked dead mid := by
  intro marking dead
  have unfolded : collect F answer m =
      (finalizeAll F answer dead >>= fun _ mid =>
        .ok ((mid.context.releaseAll dead).1, swept marking.marked dead mid))
        { m with state := marking.state } := rfl
  rw [unfolded, Run.bind_eq_ok]
  constructor
  · rintro ⟨_, mid, ran, ⟨⟩⟩
    exact ⟨mid, ran, rfl, rfl⟩
  · rintro ⟨mid, ran, rfl, rfl⟩
    exact ⟨(), mid, ran, rfl⟩

theorem swept_spec {s s' : σ} {visits : List Visit} {kept dead : List ObjectId}
    (census : Census F c s visits kept dead s') {mid : Machine σ} (ages : c.Ages mid.context)
    (quiet : mid.context.stats.collections = c.stats.collections) :
    (mid.context.releaseAll dead).1 = dead.length ∧
      Swept c kept dead mid (swept kept dead mid) := by
  obtain ⟨stats, alive⟩ := ages.quiet quiet
  have nodup : dead.Nodup :=
    census.dead_sorted.imp fun {a b} lt same => absurd lt (by simp [same])
  have count : (mid.context.releaseAll dead).1 = dead.length :=
    Context.releaseAll_count nodup fun o listed => alive o ((census.mem_dead o).1 listed).1
  have found : ∀ o, (swept kept dead mid).context.get? o =
      if o ∈ dead then none else mid.context.get? o :=
    fun o => Context.releaseAll_get? mid.context dead o
  have books := Context.releaseAll_rest mid.context dead
  refine ⟨count, rfl, ?_, fun o listed => ?_, fun o unlisted => ?_, fun o => ?_, ?_⟩
  · simp only [swept, Context.recordCollection]
    rw [books]
  · rw [found, if_pos listed]
  · rw [found, if_neg unlisted]
  · rw [Context.isLive, Heap.isLive, ← Context.get?, found, census.mem_kept]
    by_cases listed : o ∈ dead
    · have := (census.mem_dead o).1 listed
      simp [listed, this]
    · rw [if_neg listed]
      have unlisted := mt (census.mem_dead o).2 listed
      have kept : c.isLive o → Reached c visits o := fun live => by
        by_contra lost
        exact unlisted ⟨live, lost⟩
      constructor
      · intro live
        by_cases before : c.isLive o
        · exact .inl (kept before)
        · exact .inr ⟨live, before⟩
      · rintro (reached | ⟨live, -⟩)
        · exact alive o reached.live
        · exact live
  · simp only [swept, Context.recordCollection, count]
    rw [books, stats]

/-- A collection on a reachable context takes its census, runs the finalizers of the
dead proxies in slot order while every dead object is still there, and then frees
exactly the dead. Nothing else is asked of the finalizers than not to collect. -/
theorem collect_exact (F : Foreign σ) (fuel : Nat) {m : Machine σ}
    (reachable : m.context.Reachable) :
    ∃ visits kept dead s, Census F m.context m.state visits kept dead s ∧
      let finalized := Finalized F (Engine.answer F fuel) m.context
      let start : Machine σ := { m with state := s }
      let quiet := fun mid : Machine σ =>
        mid.context.stats.collections = m.context.stats.collections
      (∀ first rest mid last, dead.filter m.context.isProxy = first ++ rest →
        finalized first start mid → finalized rest mid last → quiet last →
        ∀ o ∈ dead, mid.context.isLive o) ∧
      (∀ mid, finalized (dead.filter m.context.isProxy) start mid → quiet mid →
        ∃ m', Engine.answer F (fuel + 1) .collect m = .ok (dead.length, m') ∧
          Swept m.context kept dead mid m') ∧
      (∀ (n : Nat) m', Engine.answer F (fuel + 1) .collect m = .ok (n, m') →
        m'.context.stats.collections = m.context.stats.collections + 1 →
        ∃ mid, finalized (dead.filter m.context.isProxy) start mid ∧ quiet mid) := by
  have valid := reachable.valid
  have answers := Engine.answer_returns F fuel
  obtain ⟨visits, census⟩ := mark_census F valid m.state
  have live := fun o listed => ((census.mem_dead o).1 listed).1
  refine ⟨visits, _, _, _, census, ?_, ?_, ?_⟩
  · intro first rest mid last _ past future quiet o listed
    exact (handler?_kept valid (past.returns answers).1 (future.returns answers).1 quiet
      (live o listed)).1
  · intro mid finalized quiet
    have ages := (finalized.returns answers).1.ages valid
    obtain ⟨count, swept⟩ := swept_spec census ages quiet
    refine ⟨_, collect_eq_ok.2 ⟨mid, ?_, count.symm, rfl⟩, swept⟩
    refine (finalizeAll_iff_finalized answers valid live ?_ quiet).2 finalized
    exact .refl
  · intro n m' collected once
    obtain ⟨mid, ran, -, rfl⟩ := collect_eq_ok.1 collected
    have quiet : mid.context.stats.collections = m.context.stats.collections := by
      simp only [swept, Context.recordCollection] at once
      rw [Context.releaseAll_rest] at once
      exact Nat.succ.inj once
    refine ⟨mid, (finalizeAll_iff_finalized answers valid live ?_ quiet).1 ran, quiet⟩
    exact .refl

def chronicle : Foreign (List ObjectId × List ObjectId) :=
  { Foreign.idle with
    finalize := fun _ o => .look fun _ s => .store (s.1, s.2 ++ [o]) (.done ())
    trace := fun _ o s => ([], (s.1 ++ [o], s.2)) }

def litter : Update (ObjectId × ObjectId) := do
  let handler := .traps ⟨⟨0⟩, [.trace, .finalize]⟩ 0 .plain
  let p ← Update.newProxy handler .undefined none {}
  Update.addRoot p
  let q ← Update.newProxy handler .undefined none {}
  discard <| Update.setPrivate q (.object q)
  return (p, q)

theorem tightens_litter : litter.Tightens :=
  (Update.tightens_alloc _ _).bind fun _ =>
    .bind (Update.tightens_modify (fun _ => .roots _) fun _ => rfl) fun _ =>
      (Update.tightens_alloc _ _).bind fun _ =>
        .bind ((Update.tightens_setPrivate _ _).map _) fun _ => .pure _

theorem litter_collected :
    ∃ p q c, litter (Context.create {}) = some ((p, q), c) ∧
      ∃ visits kept dead s mid m', Census chronicle c ([], []) visits kept dead s ∧
        Finalized chronicle (Engine.answer chronicle 1) c (dead.filter c.isProxy) ⟨c, s⟩ mid ∧
        Engine.answer chronicle 2 .collect ⟨c, ([], [])⟩ = .ok ((1 : Nat), m') ∧
        m'.state = ([p], [q]) := by
  refine ⟨_, _, _, rfl, ?_⟩
  obtain ⟨visits, kept, dead, s, census, -, -, complete⟩ :=
    collect_exact chronicle 1 (m := ⟨_, ([], [])⟩) ⟨{}, (tightens_litter rfl).edits.reaches⟩
  obtain ⟨mid, finalized, -⟩ := complete 1 _ rfl rfl
  exact ⟨visits, kept, dead, s, mid, _, census, finalized, rfl, rfl⟩

end Collector

end ProxyEngine
