import ProxyEngine.Proofs.Engine.Law
import ProxyEngine.Proofs.Engine.Twins

/-! Stale handles. The handle of an object that was reclaimed stays dead for good, whoever
gets the slot. What is asked of it starts nothing: it gets a fixed answer or an error, and
changes nothing else. To be given such a handle is to be given nothing: an operation
comes by no object through it, so it neither reads nor writes the one in its slot. -/

namespace ProxyEngine

variable {σ α : Type}

namespace Context

variable {c c' : Context} {h o t : ObjectId} {given given' : List ObjectId}

/-- The handle had an object, which was reclaimed. -/
def Reclaimed (c : Context) (h : ObjectId) : Prop :=
  ∃ c₀ : Context, c₀.Reachable ∧ c₀.isLive h ∧ c₀.Reaches c ∧ c.get? h = none

theorem Reclaimed.dead (reclaimed : c.Reclaimed h) : c.get? h = none :=
  reclaimed.choose_spec.2.2.2

theorem Reclaimed.reachable (reclaimed : c.Reclaimed h) : c.Reachable :=
  reclaimed.choose_spec.1.trans reclaimed.choose_spec.2.2.1

theorem Reclaimed.issued (reclaimed : c.Reclaimed h) : c.heap.Issued h := by
  obtain ⟨c₀, reachable, live, reaches, -⟩ := reclaimed
  obtain ⟨x, found⟩ := Option.isSome_iff_exists.1 live
  exact (reachable.ages reaches).heap.issued h (reachable.valid.issued_of_live found)

theorem Reclaimed.later (reclaimed : c.Reclaimed h) (reaches : c.Reaches c') : c'.Reclaimed h := by
  have ages := (reclaimed.reachable.ages reaches).heap
  have dead := ages.stale h reclaimed.issued reclaimed.dead
  obtain ⟨c₀, reachable, live, before, -⟩ := reclaimed
  exact ⟨c₀, reachable, live, Relation.ReflTransGen.trans before reaches, dead⟩

theorem Reclaimed.younger (reclaimed : c.Reclaimed h) (live : c.isLive o)
    (slots : o.slot = h.slot) : h.generation < o.generation := by
  obtain ⟨x, found⟩ := Option.isSome_iff_exists.1 live
  obtain ⟨s, slot, older | ⟨same, -⟩⟩ := reclaimed.issued
  · rw [← slots, Heap.get?_eq_some_iff.1 found] at slot
    cases slot
    exact older
  · rw [← slots, Heap.get?_eq_some_iff.1 found] at slot
    cases slot
    have equal : h = o := (ObjectId.eq_iff_generation slots.symm).2 same
    subst equal
    cases reclaimed.dead.symm.trans found

/-- Nothing is stored under the handle: what reads it gets a fixed answer, and what writes to
it says so, if it says anything, and leaves the context as it is. -/
structure Vacant (c : Context) (h : ObjectId) : Prop where
  isProxy : c.isProxy h = false
  handler : c.handler? h = none
  privateValue : c.private? h = none
  target : c.target? h = none
  reserved : ∀ slot, c.reserved? h slot = none
  prototype : c.storedPrototype h = none
  extensible : c.storedExtensible h = false
  callable : c.storedCallable h = false
  errorInfo : c.errorInfo? h = none
  unwrap : ∀ budget, c.unwrapAtMost budget h = h
  setPrivate : ∀ v, Update.setPrivate h v c = some (false, c)
  setReserved : ∀ slot v, Update.setReserved h slot v c = some (false, c)
  storePrototype : ∀ proto,
    Update.storePrototype h proto c = some (.refused .cantSetPrototype, c)
  storeExtensible : ∀ extensible, Update.storeExtensible h extensible c = some ((), c)
  fixPrototype : Update.fixPrototype h c = some ((), c)
  defineStored : ∀ k d, Update.defineStored h k d c = some (.refused .cantDefineProperty, c)
  deleteStored : ∀ k, Update.deleteStored h k c = some (.ok, c)

theorem vacant_of_dead (dead : c.get? h = none) : c.Vacant h := by
  have proxy : c.proxy? h = none := by rw [proxy?, dead]; rfl
  have handler : c.handler? h = none := by rw [handler?, proxy]; rfl
  have isProxy : c.isProxy h = false := by rw [Context.isProxy, proxy]; rfl
  have reserved (slot : Nat) : c.reserved? h slot = none := by rw [reserved?, proxy]; rfl
  have kept (f : Object → Object) : c.heap.modify h f = c.heap := Heap.modify_of_dead dead f
  have writes {α : Type} (f : Object → Object) (a : α) :
      (do Update.modifyObject h f; return a) c = some (a, c) := by
    show some (a, { c with heap := c.heap.modify h f }) = _
    rw [kept]
  refine ⟨isProxy, handler, ?_, ?_, reserved, ?_, ?_, ?_, ?_, fun budget => ?_, fun v => ?_,
    fun slot v => ?_, fun proto => ?_, fun _ => writes _ (), writes _ (), fun k d => ?_,
    fun k => ?_⟩
  · rw [private?, proxy]; rfl
  · rw [target?, private?, proxy]; rfl
  · rw [storedPrototype, dead]; rfl
  · rw [storedExtensible, dead]; rfl
  · rw [storedCallable, proxy]; rfl
  · rw [errorInfo?, dead]; rfl
  · cases budget with
    | zero => rfl
    | succ budget =>
      rw [unwrapAtMost, isWrapper, handler]
      rfl
  · rw [Update.setPrivate, Update.get_bind, isProxy]
    exact writes _ false
  · rw [Update.setReserved, Update.get_bind, reserved]
    exact writes _ false
  · rw [Update.storePrototype, Update.get_bind, dead]
    rfl
  · rw [Update.defineStored, Update.get_bind, dead]
    rfl
  · rw [Update.deleteStored, Update.get_bind, ownProperty?, dead]
    rfl

/-- Handles that can be come by from the given ones: those that live objects on the way hold. -/
inductive Footprint (c : Context) (given : List ObjectId) : ObjectId → Prop
  | given {t : ObjectId} : t ∈ given → Footprint c given t
  | held {o t : ObjectId} {x : Object} :
      Footprint c given o → c.get? o = some x → x.Holds t → Footprint c given t

theorem footprint_closed (c : Context) (given : List ObjectId) : c.Closed (c.Footprint given) :=
  fun _ _ _ inside found here => inside.held found (Object.mem_references.1 here)

theorem footprint_of_dead (dead : c.get? h = none) (inside : c.Footprint given t) :
    t = h ∨ c.Footprint (given.filter (· ≠ h)) t := by
  induction inside with
  | @given t listed =>
    by_cases same : t = h
    · exact .inl same
    · exact .inr (.given (List.mem_filter.2 ⟨listed, by simpa using same⟩))
  | held _ found holds ih =>
    obtain rfl | inside := ih
    · cases dead.symm.trans found
    · exact .inr (inside.held found holds)

end Context

theorem law_reaches : Law (fun _ => True) fun p q => p.context.Reaches q.context where
  builtin _ _ := trivial
  refl _ := .refl
  trans first second := Relation.ReflTransGen.trans first second
  act {a _ _ _} _ ran := (a.edits ran).reaches
  below related := related
  enter room := (Context.Step.enter room).reaches
  leave _ _ := Context.Step.leave.reaches
  sweep _ dead marked := (Context.Step.sweep dead marked).reaches

namespace Op

variable {s : Shape}

def obituary (op : Op s) : ErrorKind × String :=
  match op.query? with
  | some _ => (.typeError, "[object dead]" ++ op.complaint)
  | none => (.internalError, "can't access dead object")

end Op

namespace Engine

/-- What comes of a stale handle on a machine. -/
structure Inert (F : Foreign σ) (h : ObjectId) (m : Machine σ) : Prop where
  vacant : m.context.Vacant h
  younger : ∀ o, m.context.isLive o → o.slot = h.slot → h.generation < o.generation
  /-- No body starts, be it built in or the embedder's. -/
  idle : ∀ {s : Shape} (op : Op s), op.subject = h →
    ∀ fuel, (history F fuel (.perform op) m).Idle
  unfailing : ∀ {s : Shape} (op : Op s), op.subject = h → s.canFail = false →
    ∀ fuel, issue F (fuel + 1) op m = .ok (s.givenUp, m)
  /-- Nothing but the error is new, and nothing else has changed. -/
  fails : ∀ {s : Shape} (op : Op s), op.subject = h → s.canFail = true →
    Delivers (issue F · op) m (Heap.maxSlots ≤ m.context.heap.slotCount) fun a m' =>
      a = s.givenUp ∧ m'.state = m.state ∧
        m.context.Reported op.obituary.1 op.obituary.2 m'.context
  /-- An object that an operation does not come by otherwise is not written by it, and could
  be any other object for all it does. -/
  apart : ∀ {s : Shape} (op : Op s) (o : ObjectId), m.context.isLive o →
    ¬ m.context.Footprint (op.handles.filter (· ≠ h)) o →
    ∀ fuel, (history F fuel (.perform op) m).Quiet →
      ∀ a m', issue F fuel op m = .ok (a, m') →
        m'.context.get? o = m.context.get? o ∧
        ∀ f, ∃ m'', issue F fuel op { m with context.heap := m.context.heap.modify o f } =
            .ok (a, m'') ∧
          m'.context.Indistinct (fun t => m.context.isLive t ∧ t ≠ o) (s.isFailure a) m''.context

variable {F : Foreign σ} {h o : ObjectId} {m : Machine σ} {s : Shape} {op : Op s}

theorem fails_stale (dead : m.context.get? op.subject = none) (valid : m.context.heap.Valid)
    (can : s.canFail = true) :
    Delivers (issue F · op) m (Heap.maxSlots ≤ m.context.heap.slotCount) fun a m' =>
      a = s.givenUp ∧ m'.state = m.state ∧
        m.context.Reported op.obituary.1 op.obituary.2 m'.context := by
  unfold Op.obituary
  cases asked : op.query? with
  | none => exact fails_barred (.dead dead) valid can asked
  | some q =>
    have text : m.context.valueText (.object op.subject) = "[object dead]" := by
      rw [Context.valueText_object, Context.storedClassName, dead]
      rfl
    have fails := fails_barred_asked (F := F) (.dead dead) valid asked
    rwa [text] at fails

theorem apart_of_footprint (valid : m.context.heap.Valid)
    (out : ¬ m.context.Footprint op.handles o) {fuel : Nat}
    (quiet : (history F fuel (.perform op) m).Quiet) {a : s.Answer} {m' : Machine σ}
    (ran : issue F fuel op m = .ok (a, m')) (f : Object → Object) :
    ∃ m'', issue F fuel op { m with context.heap := m.context.heap.modify o f } = .ok (a, m'') ∧
      m'.context.Indistinct (fun t => m.context.isLive t ∧ t ≠ o) (s.isFailure a) m''.context ∧
      m.Spares (m.context.Footprint op.handles) m' := by
  have elsewhere (t : ObjectId) (other : t ≠ o) :
      (m.context.heap.modify o f).get? t = m.context.get? t :=
    (Heap.get?_modify ..).trans (if_neg other)
  have alike : m.context.Alike (m.context.Footprint op.handles)
      { m.context with heap := m.context.heap.modify o f } :=
    { objects := fun t inside => elsewhere t fun same => out (same ▸ inside)
      closed := Context.footprint_closed m.context op.handles
      valid := valid
      valid' := valid.modify o f
      slots := Heap.slotCount_modify ..
      room := Nat.le_of_eq (Heap.room_modify ..).symm
      rest := rfl }
  obtain ⟨m'', ran', indistinct, spares, -⟩ := issue_indistinct (fun _ => .given)
    { m with context.heap := m.context.heap.modify o f } alike
    (fun t => m.context.isLive t ∧ t ≠ o) (fun t known => ⟨known.1, elsewhere t known.2⟩)
    quiet ran
  exact ⟨m'', ran', indistinct, spares⟩

theorem inert_of_reclaimed (F : Foreign σ) (reclaimed : m.context.Reclaimed h) : Inert F h m where
  vacant := Context.vacant_of_dead reclaimed.dead
  younger _ live slots := reclaimed.younger live slots
  idle := by
    rintro s op rfl fuel
    exact idle_barred (.dead reclaimed.dead) fuel
  unfailing := by
    rintro s op rfl never fuel
    exact issue_barred_unfailing (.dead reclaimed.dead) never fuel
  fails := by
    rintro s op rfl can
    exact fails_stale reclaimed.dead reclaimed.reachable.valid can
  apart {s} op o live out fuel quiet a m' ran := by
    have valid := reclaimed.reachable.valid
    have out' : ¬ m.context.Footprint op.handles o := by
      intro inside
      obtain rfl | other := Context.footprint_of_dead reclaimed.dead inside
      · obtain ⟨x, found⟩ := Option.isSome_iff_exists.1 live
        cases reclaimed.dead.symm.trans found
      · exact out other
    obtain ⟨-, -, -, spares⟩ := apart_of_footprint valid out' quiet ran id
    refine ⟨spares.context.outside o live out', fun f => ?_⟩
    obtain ⟨m'', ran', indistinct, -⟩ := apart_of_footprint valid out' quiet ran f
    exact ⟨m'', ran', indistinct⟩

/-- The handle of a reclaimed object is inert from then on: at every later machine, and at
every place of a run on the way there. -/
theorem reclaimed_inert (F : Foreign σ) {c : Context} {h : ObjectId} (reclaimed : c.Reclaimed h) :
    (∀ m : Machine σ, c.Reaches m.context → m.context.Reclaimed h ∧ Inert F h m) ∧
    ∀ (m : Machine σ), c.Reaches m.context → ∀ {α : Type} (p : Program σ α) (fuel : Nat),
      (∀ q ∈ (runHistory F fuel p m).places, c.Reaches q.context) ∧
      ∀ a m', run F fuel p m = .ok (a, m') → c.Reaches m'.context := by
  refine ⟨fun m reaches => ?_, fun m reaches α p fuel => ⟨fun q here => ?_, fun a m' ran => ?_⟩⟩
  · have later := reclaimed.later reaches
    exact ⟨later, inert_of_reclaimed F later⟩
  · have follows := law_reaches.follows_run F.only_any fuel (Program.Only.any p) m
    have on : m.context.Reaches q.context := (List.pairwise_cons.1 follows.along).1 q here
    exact Relation.ReflTransGen.trans reaches on
  · exact Relation.ReflTransGen.trans reaches
      (Program.run_returns (answer_returns F fuel) p ran).1

def dropped : ObjectId × Context :=
  (Update.newObject none (Context.create {})).getD default

theorem dropped_inert : ∃ m o c,
    Engine.answer Foreign.idle 1 .collect ⟨dropped.2, ()⟩ = .ok ((1 : Nat), m) ∧
      m.context.Reclaimed dropped.1 ∧ Update.newObject none m.context = some (o, c) ∧
      o.slot = dropped.1.slot ∧ c.isLive o ∧ Inert Foreign.idle dropped.1 ⟨c, ()⟩ := by
  have made : Update.newObject none (Context.create {}) = some dropped := rfl
  have reachable : dropped.2.Reachable := ⟨{}, (Update.tightens_alloc _ _ made).edits.reaches⟩
  obtain ⟨m, o, c, collected, gone, reused, slot, live⟩ : ∃ m o c,
      Engine.answer Foreign.idle 1 .collect ⟨dropped.2, ()⟩ = .ok ((1 : Nat), m) ∧
        m.context.get? dropped.1 = none ∧ Update.newObject none m.context = some (o, c) ∧
        o.slot = dropped.1.slot ∧ c.isLive o := ⟨_, _, _, rfl, rfl, rfl, rfl, rfl⟩
  have reclaimed : m.context.Reclaimed dropped.1 :=
    ⟨dropped.2, reachable, rfl, (answer_returns Foreign.idle 1 .collect collected).1, gone⟩
  have reaches := (Update.tightens_alloc _ _ reused).edits.reaches
  exact ⟨m, o, c, collected, reclaimed, reused, slot, live,
    ((reclaimed_inert Foreign.idle reclaimed).1 ⟨c, ()⟩ reaches).2⟩

end Engine

end ProxyEngine
