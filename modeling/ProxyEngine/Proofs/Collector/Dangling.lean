import ProxyEngine.Proofs.Collector.Finalization
import ProxyEngine.Proofs.Context.Roots

/-! Edges to freed objects. What is freed is settled before the finalizers run, and by
then everything that holds a doomed handle is doomed itself. A finalizer can change
that: it may give such a handle to the context, to a new object or to one that stays,
and then the handle is left behind when its object is freed. In no other way does a
collection leave an edge to something it freed. In particular roots keep alive what
was registered while no finalizer was running. -/

namespace ProxyEngine

/-- The context keeps the handle `t`: by itself, or on the live object `r`. -/
inductive Context.Holds (c : Context) (t : ObjectId) : Option ObjectId → Prop
  | root {n : UInt32} : (t, n) ∈ c.roots → Holds c t none
  | pending {v : Value} : c.pending = some v → v.asObject? = some t → Holds c t none
  | stored {r : ObjectId} {x : Object} : c.get? r = some x → x.Holds t → Holds c t (some r)

theorem Context.Holds.of_same {c c' : Context} {t : ObjectId} {r : Option ObjectId}
    (held : c'.Holds t r) (heap : c'.heap = c.heap) (roots : c'.roots = c.roots)
    (pending : c'.pending = c.pending) : c.Holds t r := by
  cases held with
  | root listed => exact .root (roots ▸ listed)
  | pending held object => exact .pending (pending ▸ held) object
  | stored here stores =>
    rw [get?, heap] at here
    exact .stored here stores

def Event.addsRoot (o : ObjectId) : Event → Bool
  | asked (.act a) => a.addsRoot o
  | _ => false

def Event.removesRoot (o : ObjectId) : Event → Bool
  | asked (.act a) => a.removesRoot o
  | _ => false

theorem Event.Routine.addsRoot {e : Event} (routine : e.Routine) (o : ObjectId) :
    e.addsRoot o = false ∧ e.removesRoot o = false := by
  cases e with
  | asked r => cases r <;> first | exact ⟨rfl, rfl⟩ | exact absurd routine id
  | _ => exact ⟨rfl, rfl⟩

namespace History

def Lost (t : History) (c : Context) (o : ObjectId) : Prop :=
  (∃ μ ∈ t, μ.context.isLive o = true) ∧ c.isLive o = false

/-- An action gave the handle `o` to something outside of `D`: to an object, a new
object or the context itself. -/
def Leaked (t : History) (D : ObjectId → Prop) (o : ObjectId) : Prop :=
  ∃ μ ∈ t, ∃ a, μ.event = .asked (.act a) ∧ o ∈ a.handles ∧ ∀ r, a.recipient? = some r → ¬ D r

def registered (t : History) (o : ObjectId) : Nat :=
  t.countP (·.event.addsRoot o)

def unregistered (t : History) (o : ObjectId) : Nat :=
  t.countP (·.event.removesRoot o)

/-- The object is registered only when it is live and no finalizer runs. -/
def Prudent (o : ObjectId) : History → Prop :=
  Throughout fun before μ =>
    μ.event.addsRoot o = true → before.running = 0 ∧ μ.context.isLive o = true

/-- The object is live whenever it was registered more often than unregistered, as long as
the registrations so far fit the count of roots. -/
def Guarded (o : ObjectId) : History → Prop :=
  Throughout fun before μ => before.registered o < 0x100000000 →
    before.unregistered o < before.registered o → μ.context.isLive o = true

instance (o : ObjectId) (t : History) : Decidable (t.Prudent o) :=
  inferInstanceAs (Decidable (t.Throughout _))

variable {t t' past : History} {c : Context} {e : Event} {o : ObjectId} {D : ObjectId → Prop}

theorem Leaked.append (leaked : t.Leaked D o) (t' : History) : (t ++ t').Leaked D o := by
  obtain ⟨μ, here, leaks⟩ := leaked
  exact ⟨μ, List.mem_append_left _ here, leaks⟩

@[simp] theorem leaked_flat : t.flat.Leaked D o ↔ t.Leaked D o := by
  simp [Leaked, mem_flat]

@[simp] theorem registered_flat : t.flat.registered o = t.registered o := by
  simp [registered, flat, List.countP_map, Function.comp_def]

@[simp] theorem unregistered_flat : t.flat.unregistered o = t.unregistered o := by
  simp [unregistered, flat, List.countP_map, Function.comp_def]

@[simp] theorem prudent_flat : t.flat.Prudent o ↔ t.Prudent o :=
  throughout_flat fun _ _ => by simp

@[simp] theorem guarded_flat : t.flat.Guarded o ↔ t.Guarded o :=
  throughout_flat fun _ _ => by simp

theorem registered_then :
    (past.then c e).registered o = past.registered o + if e.addsRoot o then 1 else 0 := by
  simp [History.then, registered, List.countP_cons]

theorem unregistered_then :
    (past.then c e).unregistered o = past.unregistered o + if e.removesRoot o then 1 else 0 := by
  simp [History.then, unregistered, List.countP_cons]

end History

namespace Collector

open History

variable {σ α : Type} {F : Foreign σ} {fuel : Nat} {c c' : Context} {past : History} {e : Event}
  {o : ObjectId} {D E : ObjectId → Prop}

/-! Doomed objects while the finalizers run. -/

def Bounded (D E : ObjectId → Prop) (r : Option ObjectId) (o : ObjectId) : Prop :=
  D o → (∃ q, D q ∧ r = some q) ∨ E o

/-- All of `D` is live and held only by what is in `D` itself, with exceptions for `E`. -/
structure Enclosed (D E : ObjectId → Prop) (c : Context) : Prop where
  valid : c.heap.Valid
  live : ∀ o, D o → c.isLive o
  held : ∀ o r, c.Holds o r → Bounded D E r o

theorem Bounded.of_none (bounded : Bounded D E none o) : D o → E o :=
  fun doomed => (bounded doomed).resolve_left fun ⟨_, _, same⟩ => nomatch same

theorem tolerates_enclosed
    (intrinsic : ∀ p, p = Context.objectPrototype ∨ p = Context.functionPrototype → ¬ D p) :
    Context.Tolerates (Enclosed D E) (fun _ => True) (Bounded D E) where
  intrinsic p own := ⟨trivial, fun doomed => absurd doomed (intrinsic p own)⟩
  alloc {c o heap kind prototype} holds ancestor given stored := by
    have found := holds.valid.get?_alloc stored
    have fresh : ¬ D o := fun doomed => by
      have live := holds.live o doomed
      rw [Context.isLive, Heap.isLive, holds.valid.alloc_fresh stored] at live
      cases live
    refine ⟨⟨holds.valid.alloc stored, fun p doomed => ?_, fun t r held => ?_⟩,
      fun r doomed => absurd doomed fresh⟩
    · have other : p ≠ o := fun same => fresh (same ▸ doomed)
      rw [Context.isLive, Heap.isLive, found, if_neg other]
      exact holds.live p doomed
    · cases held with
      | root listed => exact holds.held t _ (.root listed)
      | pending pending object => exact holds.held t _ (.pending pending object)
      | @stored r x here stores =>
        rw [Context.get?, found] at here
        by_cases same : r = o
        · rw [if_pos same, Option.some.injEq] at here
          intro doomed
          right
          rw [← Object.mem_references, Object.mem_references_iff, ← here] at stores
          rcases stores with proto | ⟨k, p, listed, -⟩ | kind
          · exact (ancestor t proto).2.of_none doomed
          · cases listed
          · exact (given t kind).of_none doomed
        · rw [if_neg same] at here
          exact holds.held t _ (.stored here stores)
  change {c o x} f holds found change ancestor given := by
    have look := Heap.get?_modify c.heap o
    refine ⟨holds.valid.modify o f, fun p doomed => ?_, fun t r held => ?_⟩
    · have live := holds.live p doomed
      rw [Context.isLive, Heap.isLive] at live ⊢
      rw [look]
      split
      · rw [show c.heap.get? o = some x from found]
        rfl
      · exact live
    · cases held with
      | root listed => exact holds.held t _ (.root listed)
      | pending pending object => exact holds.held t _ (.pending pending object)
      | @stored r y here stores =>
        rw [Context.get?, look] at here
        by_cases same : r = o
        · rw [if_pos same, show c.heap.get? o = some x from found, Option.map_some,
            Option.some.injEq] at here
          rw [← here, ← Object.mem_references] at stores
          rcases given t stores with old | new
          · exact holds.held t _ (same ▸ .stored found (Object.mem_references.1 old))
          · exact same ▸ new
        · rw [if_neg same] at here
          exact holds.held t _ (.stored here stores)
  pending v holds given := by
    refine ⟨holds.valid, holds.live, fun t r held => ?_⟩
    cases held with
    | root listed => exact holds.held t _ (.root listed)
    | pending pending object =>
      exact given t (by rw [show v = some _ from pending]; exact object)
    | stored here stores => exact holds.held t _ (.stored here stores)
  rest {c c'} holds _ heap roots pending := by
    refine ⟨heap ▸ holds.valid, fun p doomed => ?_, fun t r held => ?_⟩
    · rw [Context.isLive, heap]
      exact holds.live p doomed
    · exact holds.held t r (held.of_same heap roots pending)

theorem Enclosed.update
    (intrinsic : ∀ p, p = Context.objectPrototype ∨ p = Context.functionPrototype → ¬ D p)
    (holds : Enclosed D E c) {a : Action} {x : a.Response} (ran : a.update c = some (x, c'))
    (given : ∀ t ∈ a.handles, Bounded D E a.recipient? t) : Enclosed D E c' := by
  by_cases registers : a.Registers
  · have rest := Action.rest_of_registers registers ran
    have heap : c'.heap = c.heap := by rw [rest]
    have pending : c'.pending = c.pending := by rw [rest]
    refine ⟨heap ▸ holds.valid, fun p doomed => ?_, fun t r held => ?_⟩
    · rw [Context.isLive, heap]
      exact holds.live p doomed
    · cases held with
      | @root n listed =>
        rcases Action.root_of_update ran (List.mem_map.2 ⟨_, listed, rfl⟩) with old | new
        · obtain ⟨⟨_, k⟩, before, rfl⟩ := List.mem_map.1 old
          exact holds.held _ _ (.root before)
        · cases a with
          | addRoot p => exact given t (List.mem_singleton.2 (eq_of_beq new).symm)
          | _ => cases new
      | pending held object => exact holds.held t _ (.pending (pending ▸ held) object)
      | stored here stores =>
        rw [Context.get?, heap] at here
        exact holds.held t _ (.stored here stores)
  · have tolerates := tolerates_enclosed (E := E) intrinsic
    exact (a.respects tolerates registers (fun _ _ => trivial) given holds ran).1

structure Confined (D : ObjectId → Prop) (past : History) (c : Context) : Prop where
  enclosed : Enclosed D (past.Leaked D) c
  seen : ∀ μ ∈ past, ∀ o, μ.context.isLive o = true → c.isLive o

theorem Confined.moment (holds : Confined D past c) (e : Event) : Confined D (past.then c e) c where
  enclosed := ⟨holds.enclosed.valid, holds.enclosed.live, fun o r held doomed =>
    (holds.enclosed.held o r held doomed).imp_right (·.append _)⟩
  seen μ here o live := by
    rcases List.mem_append.1 here with old | new
    · exact holds.seen μ old o live
    · rwa [List.mem_singleton.1 new] at live

theorem steady_confined
    (intrinsic : ∀ p, p = Context.objectPrototype ∨ p = Context.functionPrototype → ¬ D p) :
    Steady (Confined D) where
  moment past c _ holds := holds.moment _
  act {a x c'} past c valid _ ran holds := by
    have opened := holds.moment (.asked (.act a))
    refine ⟨opened.enclosed.update intrinsic ran fun t here _ => ?_, fun μ here o live => ?_⟩
    · by_cases inside : ∃ q, D q ∧ a.recipient? = some q
      · exact .inl inside
      · refine .inr ⟨_, List.mem_append_right _ (.head _), a, rfl, here, fun r same doomed => ?_⟩
        exact inside ⟨r, doomed, same⟩
    · exact (a.edits ran).live valid (opened.seen μ here o live)
  depth _ _ _ holds := ⟨⟨holds.enclosed.valid, holds.enclosed.live, fun o r held =>
    holds.enclosed.held o r (held.of_same rfl rfl rfl)⟩, holds.seen⟩

theorem Census.enclosed {s s' : σ} {visits : List Visit} {kept dead : List ObjectId}
    (census : Census F c s visits kept dead s') (valid : c.heap.Valid) :
    Enclosed (· ∈ dead) E c where
  valid := valid
  live o doomed := ((census.mem_dead o).1 doomed).1
  held o r held doomed := by
    obtain ⟨live, lost⟩ := (census.mem_dead o).1 doomed
    cases held with
    | root listed => exact absurd (.root (.root listed) live) lost
    | pending pending object => exact absurd (.root (.pending pending object) live) lost
    | stored here stores =>
      refine .inl ⟨_, (census.mem_dead _).2 ⟨?_, fun reached => lost ?_⟩, rfl⟩
      · exact Option.isSome_iff_exists.2 ⟨_, here⟩
      · exact .step reached (.held here stores) live

theorem not_unmarked_of_reached (valid : c.heap.Valid) (state : σ) (reached : Reached c [] o) :
    o ∉ unmarked c (mark F c.heap c.heap.live c.markRoots { state }) := by
  obtain ⟨visits, census⟩ := mark_census F valid state
  exact fun doomed => ((census.mem_dead o).1 doomed).2 reached.of_stored

theorem get?_swept (c : Context) (dead : List ObjectId) (marked n : Nat) (o : ObjectId) :
    ((c.releaseAll dead).2.recordCollection marked n).get? o =
      if o ∈ dead then none else c.get? o :=
  Context.releaseAll_get? c dead o

theorem holds_swept {dead : List ObjectId} {marked n : Nat} {r : Option ObjectId}
    (held : ((c.releaseAll dead).2.recordCollection marked n).Holds o r) : c.Holds o r := by
  have rest := Context.releaseAll_rest c dead
  cases held with
  | root listed => exact .root (by rwa [Context.recordCollection, rest] at listed)
  | pending pending object =>
    exact .pending (by rwa [Context.recordCollection, rest] at pending) object
  | stored here stores =>
    rw [get?_swept] at here
    split at here
    · cases here
    · exact .stored here stores

theorem flat_collect {m m' : Machine σ} {n : Request.collect.Response}
    (ran : Engine.answer F (fuel + 1) .collect m = .ok (n, m')) :
    (Engine.history F (fuel + 1) .collect m).flat =
      (History.then [] m.context (.asked .collect) ++
        (Engine.collectHistory F (Engine.answer F fuel) (Engine.history F fuel) m).flat).then
          m'.context (.answered .collect) := by
  have parts : Engine.history F (fuel + 1) .collect m =
      m.moment (.asked .collect) ::
        (Engine.collectHistory F (Engine.answer F fuel) (Engine.history F fuel) m).andThen
          (Engine.answer F (fuel + 1) .collect m)
          fun _ m' => [m'.moment (.answered .collect)] := rfl
  rw [parts, ran, andThen_ok]
  simp [History.then, Machine.moment]

/-- A collection with the history `t` that freed `dead`, seen from its end: `mid` is what
the finalizers left, after `past`. -/
structure Collected (t past : History) (dead : List ObjectId) (mid c' : Context) : Prop where
  confined : Confined (· ∈ dead) past mid
  flat : t.flat = past.then c' (.answered .collect)
  found : ∀ p, c'.get? p = if p ∈ dead then none else mid.get? p
  held : ∀ p r, c'.Holds p r → mid.Holds p r

theorem exists_collected {m m' : Machine σ} {n : Nat} (valid : m.context.heap.Valid)
    (ran : Engine.answer F (fuel + 1) .collect m = .ok (n, m'))
    (apart : (Engine.history F (fuel + 1) .collect m).Apart) :
    ∃ past dead mid, Collected (Engine.history F (fuel + 1) .collect m) past dead mid m'.context ∧
      ⟨{ context := m.context }, .asked .collect⟩ ∈ past ∧ ∀ o ∈ dead, ¬ m.context.Rooted o := by
  have flat := flat_collect ran
  obtain ⟨mid, finalized, -, last⟩ := collect_eq_ok.1 ran
  let marking := mark F m.context.heap m.context.heap.live m.context.markRoots { state := m.state }
  let dead := unmarked m.context marking
  obtain ⟨visits, census⟩ : ∃ visits, Census F m.context m.state visits marking.marked dead
    marking.state := mark_census F valid m.state
  have unrooted (o : ObjectId) (doomed : o ∈ dead) : ¬ m.context.Rooted o := fun rooted =>
    ((census.mem_dead o).1 doomed).2 (.root rooted ((census.mem_dead o).1 doomed).1)
  have intrinsic (p : ObjectId)
      (own : p = Context.objectPrototype ∨ p = Context.functionPrototype) : p ∉ dead := by
    rcases own with rfl | rfl
    · exact fun doomed => unrooted _ doomed .objectPrototype
    · exact fun doomed => unrooted _ doomed .functionPrototype
  have start : Undisturbed 0 (Confined (· ∈ dead)) (History.then [] m.context (.asked .collect))
      m.context :=
    ⟨valid, fun _ => ⟨rfl, Confined.moment ⟨census.enclosed valid, fun _ here =>
      absurd here List.not_mem_nil⟩ _⟩⟩
  have finalizing := (steady_confined intrinsic).finalizeAll F fuel (J := fun _ => True)
    (fun _ _ _ => trivial) (fun _ _ _ _ => trivial)
    (fun _ _ _ holds => ⟨holds.moment _, holds.moment _⟩) dead
    (m := { m with state := marking.state }) start
  rw [← apart_flat, flat] at apart
  have confined := ((finalizing.ended () mid finalized).2 (Throughout.left apart)).2
  refine ⟨_, dead, mid.context, ⟨confined, flat, fun p => ?_, fun p r held => ?_⟩,
    .head _, unrooted⟩
  · exact last ▸ get?_swept mid.context dead _ _ p
  · rw [last] at held
    exact holds_swept held

namespace Collected

variable {t : History} {dead : List ObjectId} {mid : Context}

theorem live (collected : Collected t past dead mid c') {μ : Moment} (here : μ ∈ past)
    (live : μ.context.isLive o = true) (spared : o ∉ dead) : c'.isLive o := by
  rw [Context.isLive, Heap.isLive, ← Context.get?, collected.found, if_neg spared]
  exact collected.confined.seen μ here o live

theorem doomed (collected : Collected t past dead mid c') (lost : t.Lost c' o) : o ∈ dead := by
  obtain ⟨⟨μ, here, live⟩, gone⟩ := lost
  have here : { μ with level := 0 } ∈ past.then c' (.answered .collect) :=
    collected.flat ▸ mem_flat.2 ⟨μ, here, rfl⟩
  rcases List.mem_append.1 here with before | last
  · by_contra spared
    exact Bool.false_ne_true (gone.symm.trans (collected.live before live spared))
  · have now : μ.context = c' := congrArg (·.context) (List.mem_singleton.1 last)
    exact absurd (gone.symm.trans (now ▸ live)) Bool.false_ne_true

theorem leaked (collected : Collected t past dead mid c') {r : Option ObjectId}
    (lost : t.Lost c' o) (held : c'.Holds o r) : t.Leaked (t.Lost c') o := by
  rcases collected.confined.enclosed.held o r (collected.held o r held) (collected.doomed lost)
    with ⟨q, listed, rfl⟩ | leaked
  · cases held with
    | stored here _ =>
      rw [collected.found, if_pos listed] at here
      cases here
  · rw [← leaked_flat, collected.flat]
    obtain ⟨μ, here, a, asked, given, outside⟩ := leaked
    exact ⟨μ, List.mem_append_left _ here, a, asked, given, fun r same lost =>
      outside r same (collected.doomed lost)⟩

end Collected

/-! Registered roots. -/

/-- Registrations are counted until the count wraps around, and what is registered is live if
that was done with care. -/
structure Anchored (o : ObjectId) (past : History) (c : Context) : Prop where
  counted : past.registered o < 0x100000000 →
    c.registrations o ≤ past.registered o ∧
      past.registered o ≤ past.unregistered o + c.registrations o
  live : past.Prudent o → 0 < c.registrations o → c.isLive o
  guarded : past.Prudent o → past.Guarded o

theorem Anchored.told (holds : Anchored o past c) (e : Event)
    (prudent : (past.then c e).Prudent o) : (past.then c e).Guarded o := by
  refine (holds.guarded (Throughout.left prudent)).then fun fits more => ?_
  have counted := (holds.counted fits).2
  exact holds.live (Throughout.left prudent) (by omega)

theorem Anchored.moment (holds : Anchored o past c) (idle : e.addsRoot o = false)
    (keeps : e.removesRoot o = false) : Anchored o (past.then c e) c where
  counted := by simpa [registered_then, unregistered_then, idle, keeps] using holds.counted
  live prudent := holds.live (Throughout.left prudent)
  guarded := holds.told e

theorem Anchored.act (holds : Anchored o past c) (valid : c.heap.Valid) {a : Action}
    {x : a.Response} (ran : a.update c = some (x, c')) :
    Anchored o (past.then c (.asked (.act a))) c' := by
  have change := Action.registrations_update ran o
  have adds : (Event.asked (.act a)).addsRoot o = a.addsRoot o := rfl
  have removes : (Event.asked (.act a)).removesRoot o = a.removesRoot o := rfl
  refine ⟨fun fits => ?_, fun prudent more => ?_, holds.told _⟩
  · rw [registered_then, adds] at fits
    rw [registered_then, unregistered_then, change, adds, removes]
    have counted := holds.counted (by omega)
    omega
  · refine (a.edits ran).live valid ?_
    have now := Throughout.now prudent
    cases added : a.addsRoot o with
    | true => exact (now added).2
    | false =>
      rw [change, added] at more
      refine holds.live (Throughout.left prudent) ?_
      simp only [Bool.false_eq_true, if_false, Nat.add_zero] at more
      have := Nat.mod_le (c.registrations o) 0x100000000
      omega

/-- While the finalizers of a collection on `c₀` run, nothing is registered that was not
before, and nothing dies. -/
structure Pledged (o : ObjectId) (c₀ : Context) (past : History) (c : Context) : Prop
    extends Anchored o past c where
  bounded : past.Prudent o → c.registrations o ≤ c₀.registrations o
  kept : ∀ p, c₀.isLive p → c.isLive p

theorem Pledged.moment {c₀ : Context} (holds : Pledged o c₀ past c) (idle : e.addsRoot o = false)
    (keeps : e.removesRoot o = false) : Pledged o c₀ (past.then c e) c where
  toAnchored := holds.toAnchored.moment idle keeps
  bounded prudent := holds.bounded (Throughout.left prudent)
  kept := holds.kept

theorem steady_pledged (o : ObjectId) (c₀ : Context) : Steady (Pledged o c₀) where
  moment past c routine holds :=
    holds.moment (routine.addsRoot o).1 (routine.addsRoot o).2
  act {a x c'} past c valid busy ran holds := by
    refine ⟨holds.toAnchored.act valid ran, fun prudent => ?_, fun p live =>
      (a.edits ran).live valid (holds.kept p live)⟩
    have now := Throughout.now prudent
    have before := holds.bounded (Throughout.left prudent)
    cases added : a.addsRoot o with
    | true => exact absurd (now added).1 (Nat.pos_iff_ne_zero.1 busy)
    | false =>
      rw [Action.registrations_update ran, added]
      simp only [Bool.false_eq_true, if_false, Nat.add_zero]
      have := Nat.mod_le (c.registrations o) 0x100000000
      omega
  depth _ _ _ holds := ⟨⟨holds.counted, holds.live, holds.guarded⟩, holds.bounded, holds.kept⟩

theorem Pledged.sweep {m : Machine σ} {base : History} (holds : Pledged o m.context past c)
    (valid : m.context.heap.Valid) (before : Anchored o base m.context)
    (sooner : past.Prudent o → base.Prudent o) (marked n : Nat) :
    Anchored o past (((c.releaseAll (unmarked m.context (mark F m.context.heap m.context.heap.live
      m.context.markRoots { state := m.state }))).2).recordCollection marked n) := by
  have same (dead : List ObjectId) :
      ((c.releaseAll dead).2.recordCollection marked n).registrations o = c.registrations o := by
    rw [Context.recordCollection, Context.releaseAll_rest]
    rfl
  refine ⟨by rw [same]; exact holds.counted, fun prudent more => ?_, holds.guarded⟩
  rw [same] at more
  have first : 0 < m.context.registrations o := Nat.lt_of_lt_of_le more (holds.bounded prudent)
  have live := before.live (sooner prudent) first
  have reached : Reached m.context [] o := .root (.of_registrations first) live
  have spared := not_unmarked_of_reached (F := F) valid m.state reached
  rw [Context.isLive, Heap.isLive, ← Context.get?, get?_swept, if_neg spared]
  exact holds.kept o live

theorem upholds_anchored (F : Foreign σ) (o : ObjectId) :
    Upholds F (Undisturbed 0 (Anchored o))
      fun past => past.Apart → past.Prudent o → past.Guarded o where
  told past c holds apart := (holds.2 apart).2.guarded
  asked past c holds apart := (holds.2 apart.left).2.told _
  moment past c routine holds := holds.moment (routine.tally 0) fun anchored =>
    anchored.moment (routine.addsRoot o).1 (routine.addsRoot o).2
  act _ _ ran holds := holds.act ran fun _ anchored => anchored.act holds.1 ran
  depth _ _ _ _ holds := holds.depth fun anchored =>
    ⟨anchored.counted, anchored.live, anchored.guarded⟩
  collect {fuel} m _ past holds := by
    let marking := mark F m.context.heap m.context.heap.live m.context.markRoots
      { state := m.state }
    have start : Undisturbed 0 (Pledged o m.context) (past.then m.context (.asked .collect))
        m.context :=
      Undisturbed.moment (K := Pledged o m.context) ⟨holds.1, fun apart => ⟨(holds.2 apart).1,
        (holds.2 apart).2, fun _ => Nat.le_refl _, fun _ live => live⟩⟩ rfl
        fun pledged => pledged.moment rfl rfl
    have finalizing := (steady_pledged o m.context).finalizeAll F fuel
      (J := fun past => past.Prudent o → past.Guarded o) (fun _ _ pledged => pledged.guarded)
      (fun _ _ _ pledged => pledged.told _)
      (fun _ _ _ pledged => ⟨pledged.moment rfl rfl, pledged.moment rfl rfl⟩)
      (unmarked m.context marking) (m := { m with state := marking.state }) start
    refine yields_around (fun past c holds apart => (holds.2 apart).2.guarded)
      (I := Undisturbed 0 (Anchored o)) ⟨finalizing.told, fun n m' ended => ?_⟩
      fun past _ c holds => holds.moment rfl fun anchored => anchored.moment rfl rfl
    obtain ⟨mid, ran, -, rfl⟩ := collect_eq_ok.1 ended
    have finished := finalizing.ended () mid ran
    have step : mid.context.Step _ := .sweep (unmarked m.context marking) marking.marked.length
    refine ⟨(step.ages finished.1).heap.valid, fun apart => ⟨(finished.2 apart).1, ?_⟩⟩
    exact (finished.2 apart).2.sweep holds.1 (holds.2 apart.left.left).2
      (fun prudent => Throughout.left (Throughout.left prudent)) _ _

end Collector

namespace Engine

open Collector

variable {σ α : Type}

/-- Edges and roots across collections, as long as no finalizer asks for one. After a
collection on a reachable context, a handle of an object that was lost in it is held by
nothing, neither by the context nor by a live object, unless a finalizer gave that handle
to the context, to a new object or to one that was not lost; and what was rooted when the
collection began is alive. In every run, an object that is registered as a root only while
it is live and no finalizer runs is alive whenever it was registered more often than
unregistered, until the count of its registrations wraps around. -/
theorem collection_edges (F : Foreign σ) (fuel : Nat) :
    (∀ (m m' : Machine σ) (n : Nat), m.context.Reachable →
      answer F (fuel + 1) .collect m = .ok (n, m') →
      let t := history F (fuel + 1) .collect m
      t.Apart →
        (∀ o r, t.Lost m'.context o → m'.context.Holds o r → t.Leaked (t.Lost m'.context) o) ∧
        ∀ o, m.context.isLive o → m.context.Rooted o → m'.context.isLive o) ∧
    ∀ (p : Program σ α) (options : ContextOptions) (s : σ),
      let m : Machine σ := ⟨Context.create options, s⟩
      let t := runHistory F fuel p m
      t.Apart → ∀ o, t.Prudent o →
        t.Guarded o ∧
        ∀ a m', run F fuel p m = .ok (a, m') → t.registered o < 0x100000000 →
          t.unregistered o < t.registered o → m'.context.isLive o := by
  constructor
  · intro m m' n reachable ran t apart
    obtain ⟨past, dead, mid, collected, started, unrooted⟩ :=
      exists_collected reachable.valid ran apart
    exact ⟨fun o r lost held => collected.leaked lost held, fun o live rooted =>
      collected.live started live fun doomed => unrooted o doomed rooted⟩
  · intro p options s m t apart o prudent
    have anchored := (upholds_anchored F o).run fuel p m []
      ⟨Context.create_valid options, fun _ =>
        ⟨rfl, fun _ => ⟨Nat.le_refl _, Nat.le_refl _⟩, fun _ more => ?_, fun _ => .nil⟩⟩
    · rw [← History.apart_flat] at apart
      rw [← History.prudent_flat] at prudent
      refine ⟨History.guarded_flat.1 (anchored.told apart prudent), fun a m' ran fits more => ?_⟩
      have ended := ((anchored.ended a m' ran).2 apart).2
      have counted := ended.counted
      rw [List.nil_append, History.registered_flat, History.unregistered_flat] at counted
      have reached := (counted fits).2
      exact ended.live prudent (Nat.pos_of_lt_add_right (Nat.lt_of_lt_of_le more reached))
    · cases more

def stray : ObjectId := .first ⟨3, by decide⟩

def meddler : Foreign Bool :=
  onceOnly (Program.addRoot stray)

def newStray : Program Bool ObjectId := do
  discard <| Program.newObject none
  newLitter

theorem root_lost : ∃ (m m' : Machine Bool) (n : Nat), m.context.Reachable ∧
    answer meddler 4 .collect m = .ok (n, m') ∧
    let t := history meddler 4 .collect m
    t.Apart ∧ t.registered stray = 1 ∧ t.unregistered stray = 0 ∧
      t.Lost m'.context stray ∧ m'.context.Holds stray none := by
  have made : ∃ p m, run meddler 4 newStray ⟨Context.create {}, false⟩ = .ok (p, m) := ⟨_, _, rfl⟩
  obtain ⟨p, m, ran⟩ := made
  have reachable := run_reachable ran ⟨{}, .refl⟩
  cases ran
  refine ⟨_, _, _, reachable, rfl, by decide +kernel, rfl, rfl, ⟨⟨_, .head _, rfl⟩, rfl⟩, ?_⟩
  exact .root (.head _)

def keepStray : Program Bool Nat := do
  discard <| newStray
  Program.addRoot stray
  Program.collect

theorem stray_leaked :
    (∃ (m m' : Machine Bool) (n : Nat), answer meddler 4 .collect m = .ok (n, m') ∧
      let t := history meddler 4 .collect m
      t.Leaked (t.Lost m'.context) stray) ∧
    ∃ n m', run Foreign.idle 4 keepStray ⟨Context.create {}, false⟩ = .ok (n, m') ∧
      n = 1 ∧ m'.context.isLive stray := by
  constructor
  · have made : ∃ p m, run meddler 4 newStray ⟨Context.create {}, false⟩ = .ok (p, m) := ⟨_, _, rfl⟩
    obtain ⟨p, m, ran⟩ := made
    have reachable := run_reachable ran ⟨{}, .refl⟩
    cases ran
    obtain ⟨edges, -⟩ := (collection_edges (α := Unit) meddler 3).1 _ _ _ reachable rfl
      (by decide +kernel)
    exact ⟨_, _, _, rfl, edges stray none ⟨⟨_, .head _, rfl⟩, rfl⟩ (.root (.head _))⟩
  · have kept := (collection_edges Foreign.idle 4).2 keepStray {} false (by decide +kernel) stray
      (by decide +kernel)
    exact ⟨_, _, rfl, rfl, kept.2 _ _ rfl (by decide +kernel) (by decide +kernel)⟩

end Engine

end ProxyEngine
