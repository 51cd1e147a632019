import ProxyEngine.Proofs.Engine.Invariant

/-! When finalizers run. Whatever the hooks do, a finalizer only ever starts for a live
proxy, and no proxy is freed before its own was started. That none is started twice
holds as long as no collection is asked for while a finalizer runs; such a request
makes the collector finalize, from inside, proxies that are still on the list of the
collection outside. The end of a context finalizes the proxies that are live when it
begins, and none that a finalizer makes after that. -/

namespace ProxyEngine

variable {σ α : Type}

def Event.finalizes (o : ObjectId) : Event → Bool
  | started (.finalizer _ p) => p == o
  | _ => false

def Event.collects : Event → Bool
  | asked r => r.isCollect
  | _ => false

def Event.tally (n : Nat) : Event → Nat
  | started (.finalizer ..) => n + 1
  | ended (.finalizer ..) _ => n - 1
  | _ => n

theorem Event.Routine.finalizes {e : Event} (routine : e.Routine) (o : ObjectId) :
    e.finalizes o = false := by
  cases e with
  | started b => cases b <;> first | rfl | cases routine
  | _ => rfl

theorem Event.Routine.tally {e : Event} (routine : e.Routine) (n : Nat) : e.tally n = n := by
  cases e with
  | started b => cases b <;> first | rfl | cases routine
  | ended b _ => cases b <;> first | rfl | cases routine
  | _ => rfl

namespace History

def finalizations (t : History) (o : ObjectId) : Nat :=
  t.countP fun μ => μ.event.finalizes o

def running (t : History) : Nat :=
  t.foldl (fun n μ => μ.event.tally n) 0

/-- Collections are asked for only while no finalizer runs. -/
def Apart : History → Prop :=
  Throughout fun before μ => μ.event.collects = true → before.running = 0

instance (t : History) : Decidable t.Apart :=
  inferInstanceAs (Decidable (t.Throughout _))

def Saw (t : History) (o : ObjectId) : Prop :=
  ∃ μ ∈ t, μ.context.isProxy o = true

structure Attended (t : History) : Prop where
  /-- A proxy is live when its finalizer starts. -/
  live : ∀ μ ∈ t, ∀ h o, μ.event = .started (.finalizer h o) → μ.context.handler? o = some h
  /-- No proxy dies before its finalizer was started. -/
  mourned : t.Throughout fun before μ => ∀ o, before.Saw o → μ.context.isLive o = false →
    0 < before.finalizations o

variable {t t' past : History} {c : Context} {e : Event} {o : ObjectId}

@[simp] theorem finalizations_append :
    (t ++ t').finalizations o = t.finalizations o + t'.finalizations o :=
  List.countP_append

@[simp] theorem finalizations_flat : t.flat.finalizations o = t.finalizations o := by
  simp [finalizations, flat, List.countP_map, Function.comp_def]

@[simp] theorem running_flat : t.flat.running = t.running := by
  simp [running, flat, List.foldl_map]

theorem finalizations_then :
    (past.then c e).finalizations o = past.finalizations o + if e.finalizes o then 1 else 0 := by
  simp [History.then, finalizations, List.countP_cons]

theorem running_then : (past.then c e).running = e.tally past.running := by
  simp [History.then, running]

theorem saw_append : (t ++ t').Saw o ↔ t.Saw o ∨ t'.Saw o := by
  simp [Saw, or_and_right, exists_or]

theorem saw_then : (past.then c e).Saw o ↔ past.Saw o ∨ c.isProxy o := by
  simp [History.then, Saw, or_and_right, exists_or]

@[simp] theorem saw_flat : t.flat.Saw o ↔ t.Saw o := by
  simp [Saw, mem_flat]

theorem Apart.left (apart : (t ++ t').Apart) : t.Apart :=
  Throughout.left apart

theorem Apart.asked (apart : (past.then c (.asked .collect) ++ t).Apart) : past.running = 0 :=
  Throughout.now (Throughout.left apart) rfl

@[simp] theorem apart_flat : t.flat.Apart ↔ t.Apart :=
  throughout_flat fun _ _ => by simp

theorem Attended.nil : Attended [] where
  live _ here := absurd here List.not_mem_nil
  mourned := .nil

theorem Attended.of_flat (attended : t.flat.Attended) : t.Attended where
  live μ here := attended.live { μ with level := 0 } (mem_flat.2 ⟨μ, here, rfl⟩)
  mourned := (throughout_flat fun _ _ => by simp).1 attended.mourned

end History

namespace Collector

open History

variable {F : Foreign σ} {fuel : Nat} {known : ObjectId → Prop} {c c' c₀ : Context}
  {past : History} {e : Event} {o : ObjectId} {done : List ObjectId}

/-! What every finalizer keeps. -/

/-- Every proxy that was seen, or is known anyway, is still one or had its finalizer
started. -/
structure Owed (known : ObjectId → Prop) (past : History) (c : Context) : Prop where
  valid : c.heap.Valid
  attended : past.Attended
  owed : ∀ o, past.Saw o ∨ known o → c.isProxy o = true ∨ 0 < past.finalizations o

namespace Owed

theorem moment (holds : Owed known past c)
    (live : ∀ h o, e = .started (.finalizer h o) → c.handler? o = some h) :
    Owed known (past.then c e) c := by
  refine ⟨holds.valid, ⟨fun μ here h o started => ?_, holds.attended.mourned.then
    fun o saw dead => ?_⟩, fun o seen => ?_⟩
  · rcases List.mem_append.1 here with old | new
    · exact holds.attended.live μ old h o started
    · obtain rfl := List.mem_singleton.1 new
      exact live h o started
  · refine (holds.owed o (.inl saw)).resolve_left fun proxy => ?_
    have live := Context.isLive_of_isProxy proxy
    exact Bool.false_ne_true (dead.symm.trans live)
  · rw [finalizations_then]
    rw [saw_then] at seen
    rcases seen with (saw | proxy) | told
    · exact (holds.owed o (.inl saw)).imp_right fun pos => Nat.lt_add_right _ pos
    · exact .inl proxy
    · exact (holds.owed o (.inr told)).imp_right fun pos => Nat.lt_add_right _ pos

theorem routine (holds : Owed known past c) (routine : e.Routine) :
    Owed known (past.then c e) c :=
  holds.moment fun h o started => by
    rw [started] at routine
    cases routine

theorem later (holds : Owed known past c) (valid : c'.heap.Valid)
    (proxies : ∀ o, c.isProxy o → c'.isProxy o ∨ 0 < past.finalizations o) :
    Owed known past c' :=
  ⟨valid, holds.attended, fun o seen => (holds.owed o seen).elim (proxies o) .inr⟩

theorem edits (holds : Owed known past c) (edits : c.Edits c') : Owed known past c' := by
  have ages := edits.reaches.ages holds.valid
  refine holds.later ages.heap.valid fun o proxy => .inl ?_
  have live := Context.isLive_of_isProxy proxy
  rw [ages.isProxy_of_live live (edits.live holds.valid live), proxy]

end Owed

/-- The finalizers of `done` have run since the context was `c₀`. -/
structure Settling (known : ObjectId → Prop) (c₀ : Context) (done : List ObjectId)
    (past : History) (c : Context) : Prop extends Owed known past c where
  ages : c₀.Ages c
  noticed : ∀ o, c₀.isProxy o → past.Saw o ∨ known o
  settled : ∀ o ∈ done, c₀.isProxy o → 0 < past.finalizations o

theorem Settling.moment (holds : Settling known c₀ done past c)
    (live : ∀ h o, e = .started (.finalizer h o) → c.handler? o = some h) :
    Settling known c₀ done (past.then c e) c where
  toOwed := holds.toOwed.moment live
  ages := holds.ages
  noticed o proxy := (holds.noticed o proxy).imp_left fun saw => saw_then.2 (.inl saw)
  settled o listed proxy := by
    rw [finalizations_then]
    exact Nat.lt_add_right _ (holds.settled o listed proxy)

theorem yields_settling (valid : c₀.heap.Valid)
    (finalizers : ∀ h o (m : Machine σ), Keeps (Owed known) Attended m
      (Engine.runHistory F fuel (F.finalizer h o) m) (Engine.run F fuel (F.finalizer h o) m))
    (os : List ObjectId) {m : Machine σ} (start : Settling known c₀ [] past m.context) :
    Yields (Settling known c₀ os) Attended past
      (Engine.finalizeHistory F (Engine.answer F fuel) (Engine.history F fuel) os m)
      (finalizeAll F (Engine.answer F fuel) os m) := by
  refine yields_finalizeAll (fun _ _ _ holds => holds.attended) ?skip ?body start
  case skip =>
    intro done o rest past c _ ordinary holds
    refine ⟨holds.toOwed, holds.ages, holds.noticed, fun p listed proxy => ?_⟩
    rcases List.mem_append.1 listed with before | here
    · exact holds.settled p before proxy
    · obtain rfl := List.mem_singleton.1 here
      -- The proxy is none any more, so it died, and its finalizer was started then.
      refine (holds.owed p (holds.noticed p proxy)).resolve_left fun still => ?_
      rw [Context.isProxy_eq, ordinary] at still
      cases still
  case body =>
    intro done o rest past h m _ handler holds
    have opened := holds.moment (e := .started (.finalizer h o)) (by rintro _ _ ⟨⟩; exact handler)
    have inside := finalizers h o m _ opened.toOwed
    refine yields_around (fun _ _ holds => holds.attended) (I := Settling known c₀ (done ++ [o]))
      ⟨inside.told, fun a m' ran => ?_⟩ fun past _ c holds => holds.moment nofun
    have reaches := (Program.run_returns (Engine.answer_returns F fuel) _ ran).1
    refine ⟨inside.ended a m' ran, holds.ages.trans valid (reaches.ages holds.valid),
      fun p proxy => ?_, fun p listed proxy => ?_⟩
    · exact (opened.noticed p proxy).imp_left fun saw => saw_append.2 (.inl saw)
    · rw [finalizations_append, finalizations_then]
      rcases List.mem_append.1 listed with before | here
      · have := holds.settled p before proxy
        omega
      · obtain rfl := List.mem_singleton.1 here
        simp only [Event.finalizes, beq_self_eq_true, if_true]
        omega

theorem Settling.sweep {dead : List ObjectId} (holds : Settling known c₀ dead past c)
    (live : ∀ o ∈ dead, c₀.isLive o) (marked : Nat) :
    Owed known past ((c.releaseAll dead).2.recordCollection marked (c.releaseAll dead).1) := by
  have step : c.Step ((c.releaseAll dead).2.recordCollection marked (c.releaseAll dead).1) :=
    .sweep dead marked
  refine holds.later (step.ages holds.valid).heap.valid fun o proxy => ?_
  have now := Context.isLive_of_isProxy proxy
  by_cases listed : o ∈ dead
  · have same := holds.ages.isProxy_of_live (live o listed) now
    exact .inr (holds.settled o listed (same.symm.trans proxy))
  · have found : ((c.releaseAll dead).2.recordCollection marked (c.releaseAll dead).1).get? o =
        c.get? o := (Context.releaseAll_get? c dead o).trans (if_neg listed)
    left
    rw [Context.isProxy, Context.proxy?, found]
    exact proxy

theorem live_of_unmarked {marking : Marking σ} (listed : o ∈ unmarked c marking) :
    c.isLive o :=
  Heap.mem_ids.1 (List.mem_of_mem_filter listed)

theorem upholds_owed (F : Foreign σ) (known : ObjectId → Prop) :
    Upholds F (Owed known) Attended where
  told _ _ holds := holds.attended
  asked {r} _ _ holds := (holds.moment (e := .asked r) nofun).attended
  moment _ _ routine holds := holds.routine routine
  act {a _ _} _ _ ran holds := (holds.moment (e := .asked (.act a)) nofun).edits (a.edits ran)
  depth _ _ _ _ holds := ⟨holds.valid, holds.attended, holds.owed⟩
  collect {fuel} m finalizers past holds := by
    let marking := mark F m.context.heap m.context.heap.live m.context.markRoots
      { state := m.state }
    have asked := holds.moment (e := .asked .collect) nofun
    have start : Settling known m.context [] (past.then m.context (.asked .collect)) m.context :=
      ⟨asked, Context.ages_refl holds.valid, fun o proxy => .inl (saw_then.2 (.inr proxy)), nofun⟩
    have finalizing := yields_settling holds.valid finalizers (unmarked m.context marking)
      (m := { m with state := marking.state }) start
    refine yields_around (fun _ _ holds => holds.attended) (I := Owed known)
      ⟨finalizing.told, fun n m' ended => ?_⟩ fun past _ c holds => holds.moment nofun
    obtain ⟨mid, ran, -, rfl⟩ := collect_eq_ok.1 ended
    exact (finalizing.ended () mid ran).sweep (fun o => live_of_unmarked) _

/-! What is kept when no collection is asked for inside a finalizer. -/

/-- Single moments and actions keep `K` while a finalizer runs. -/
structure Steady (K : Condition) : Prop where
  moment : ∀ {e : Event} (past c), e.Routine → K past c → K (past.then c e) c
  act : ∀ {a : Action} {x c'} (past : History) (c : Context), c.heap.Valid → 0 < past.running →
    a.update c = some (x, c') → K past c → K (past.then c (.asked (.act a))) c'
  depth : ∀ (past) (c : Context) (d : Nat), K past c → K past { c with depth := d }

def Undisturbed (n : Nat) (K : Condition) : Condition :=
  fun past c => c.heap.Valid ∧ (past.Apart → past.running = n ∧ K past c)

theorem past_collect (F : Foreign σ) (fuel : Nat) (m : Machine σ) (past : History) :
    ∃ t, past ++ (Engine.history F (fuel + 1) .collect m).flat =
      past.then m.context (.asked .collect) ++ t :=
  ⟨_, (List.append_assoc past [⟨{ context := m.context }, .asked .collect⟩] _).symm⟩

section

variable {K K' : Condition} {J : History → Prop} {n : Nat}

theorem Undisturbed.moment (holds : Undisturbed n K past c) {k : Nat} (tally : e.tally n = k)
    (kept : K past c → K (past.then c e) c) : Undisturbed k K (past.then c e) c :=
  ⟨holds.1, fun apart => by
    obtain ⟨running, holds⟩ := holds.2 apart.left
    exact ⟨by rw [running_then, running, tally], kept holds⟩⟩

theorem Undisturbed.act {a : Action} {x : a.Response} (holds : Undisturbed n K past c)
    (ran : a.update c = some (x, c'))
    (kept : past.running = n → K past c → K (past.then c (.asked (.act a))) c') :
    Undisturbed n K (past.then c (.asked (.act a))) c' := by
  refine ⟨((a.edits ran).reaches.ages holds.1).heap.valid, fun apart => ?_⟩
  obtain ⟨running, holds⟩ := holds.2 apart.left
  exact ⟨running_then.trans running, kept running holds⟩

theorem Undisturbed.depth {d : Nat} (holds : Undisturbed n K past c)
    (kept : K past c → K past { c with depth := d }) : Undisturbed n K past { c with depth := d } :=
  ⟨holds.1, fun apart => ⟨(holds.2 apart).1, kept (holds.2 apart).2⟩⟩

theorem Steady.and (first : Steady K) (second : Steady K') :
    Steady fun past c => K past c ∧ K' past c where
  moment past c routine holds :=
    ⟨first.moment past c routine holds.1, second.moment past c routine holds.2⟩
  act past c valid busy ran holds :=
    ⟨first.act past c valid busy ran holds.1, second.act past c valid busy ran holds.2⟩
  depth past c d holds := ⟨first.depth past c d holds.1, second.depth past c d holds.2⟩

theorem steady_live (c₀ : Context) : Steady fun _ c => ∀ o, c₀.isLive o → c.isLive o where
  moment _ _ _ holds := holds
  act {a _ _} _ _ valid _ ran holds o live := (a.edits ran).live valid (holds o live)
  depth _ _ _ holds := holds

theorem Steady.upholds (steady : Steady K) (busy : 0 < n) (told : ∀ past c, K past c → J past)
    (asked : ∀ (r : Request) (past c), K past c → J (past.then c (.asked r))) :
    Upholds F (Undisturbed n K) fun past => past.Apart → J past where
  told past c holds apart := told past c (holds.2 apart).2
  asked {r} past c holds apart := asked r past c (holds.2 apart.left).2
  moment past c routine holds := holds.moment (routine.tally n) (steady.moment past c routine)
  act past c ran holds := holds.act ran fun running =>
    steady.act past c holds.1 (running ▸ busy) ran
  depth past c d _ holds := holds.depth (steady.depth past c d)
  collect {fuel} m _ past holds := by
    -- Such a request is the one thing that is excluded here.
    have excluded : ¬ (past ++ (Engine.history F (fuel + 1) .collect m).flat).Apart := by
      obtain ⟨t, parts⟩ := past_collect F fuel m past
      rw [parts]
      intro apart
      have idle := apart.asked
      have running := (holds.2 apart.left.left).1
      omega
    refine ⟨fun apart => absurd apart excluded,
      fun n m' ran => ⟨?_, fun apart => absurd apart excluded⟩⟩
    exact ((Engine.answer_returns F _ _ ran).1.ages holds.1).heap.valid

theorem Steady.finalizeAll (steady : Steady K) (F : Foreign σ) (fuel : Nat)
    (told : ∀ past c, K past c → J past)
    (asked : ∀ (r : Request) (past c), K past c → J (past.then c (.asked r)))
    (turn : ∀ {b : Body} (past c), b.isFinalizer = true → K past c →
      K (past.then c (.started b)) c ∧ K (past.then c (.ended b false)) c)
    (os : List ObjectId) {m : Machine σ} (start : Undisturbed 0 K past m.context) :
    Yields (Undisturbed 0 K) (fun past => past.Apart → J past) past
      (Engine.finalizeHistory F (Engine.answer F fuel) (Engine.history F fuel) os m)
      (finalizeAll F (Engine.answer F fuel) os m) := by
  have tells (past c) (holds : Undisturbed 0 K past c) (apart : past.Apart) : J past :=
    told past c (holds.2 apart).2
  refine yields_finalizeAll (L := fun _ => Undisturbed 0 K) (fun _ => tells)
    (fun _ _ _ _ _ _ _ holds => holds) (fun _ o _ past h m _ _ holds => ?_) start
  have opened : Undisturbed 1 K (past.then m.context (.started (.finalizer h o))) m.context :=
    holds.moment rfl fun holds => (turn past _ rfl holds).1
  have upholds := steady.upholds (F := F) Nat.one_pos told asked
  have inside := upholds.run fuel (F.finalizer h o) m _ opened
  exact yields_around tells inside fun past _ c holds =>
    holds.moment rfl fun holds => (turn past c rfl holds).2

end

def Unstarted (base : History) : Condition :=
  fun past _ => ∀ o, past.finalizations o = base.finalizations o

theorem steady_unstarted (base : History) : Steady (Unstarted base) where
  moment past c routine holds o := by simp [finalizations_then, routine.finalizes, holds o]
  act _ _ _ _ _ holds o := finalizations_then.trans (holds o)
  depth _ _ _ holds := holds

/-- No finalizer was started twice, and those that were started, `done` apart, belong to
objects that are gone; `n` finalizers are running. -/
structure Spent (n : Nat) (done : List ObjectId) (past : History) (c : Context) : Prop where
  running : past.running = n
  once : ∀ o, past.finalizations o ≤ 1
  gone : ∀ o, 0 < past.finalizations o → o ∈ done ∨ c.heap.Issued o ∧ c.get? o = none

theorem Spent.later {n : Nat} (spent : Spent n done past c) (ages : c.Ages c') :
    Spent n done past c' :=
  ⟨spent.running, spent.once, fun o pos => (spent.gone o pos).imp_right fun ⟨issued, dead⟩ =>
    ⟨ages.heap.issued o issued, ages.heap.stale o issued dead⟩⟩

theorem Spent.moment {n : Nat} (spent : Spent n done past c) (c' : Context)
    (silent : ∀ o, e.finalizes o = false) : Spent (e.tally n) done (past.then c' e) c where
  running := by rw [running_then, spent.running]
  once o := by
    rw [finalizations_then, silent]
    exact spent.once o
  gone o := by
    rw [finalizations_then, silent]
    exact spent.gone o

theorem Spent.still {n : Nat} {base : History} (spent : Spent n done base c)
    (unstarted : Unstarted base past c') (ages : c.Ages c') (running : past.running = n) :
    Spent n done past c' where
  running := running
  once o := by
    rw [unstarted]
    exact spent.once o
  gone o := by
    rw [unstarted]
    exact (spent.later ages).gone o

theorem Spent.unstarted {n : Nat} (spent : Spent n done past c) (unlisted : o ∉ done)
    (live : c.isLive o) : past.finalizations o = 0 := by
  by_contra started
  rcases spent.gone o (Nat.pos_of_ne_zero started) with listed | ⟨-, dead⟩
  · exact unlisted listed
  · rw [Context.isLive, Heap.isLive, show c.heap.get? o = none from dead] at live
    cases live

theorem Spent.started (spent : Spent 0 done past c) (unlisted : o ∉ done) (live : c.isLive o)
    (h : Handler) : Spent 1 (done ++ [o]) (past.then c (.started (.finalizer h o))) c := by
  have counted (p : ObjectId) : (past.then c (.started (.finalizer h o))).finalizations p =
      past.finalizations p + if o == p then 1 else 0 := finalizations_then
  refine ⟨running_then.trans (congrArg Nat.succ spent.running), fun p => ?_, fun p pos => ?_⟩
  · rw [counted]
    by_cases same : o = p
    · simp [← same, spent.unstarted unlisted live]
    · simpa [same] using spent.once p
  · rw [counted] at pos
    by_cases same : o = p
    · exact .inl (by simp [same])
    · exact (spent.gone p (by simpa [same] using pos)).imp_left (List.mem_append_left _)

structure Finishing (c₀ : Context) (n : Nat) (done : List ObjectId) (past : History)
    (c : Context) : Prop where
  ages : c₀.Ages c
  spent : past.Apart → Spent n done past c
  live : past.Apart → ∀ o, c₀.isLive o → c.isLive o

def Unrepeated (past : History) : Prop :=
  past.Apart → ∀ o, past.finalizations o ≤ 1

theorem yields_finishing (F : Foreign σ) (fuel : Nat) (valid : c₀.heap.Valid) {os : List ObjectId}
    (nodup : os.Nodup) (live : ∀ o ∈ os, c₀.isLive o) {m : Machine σ}
    (start : Finishing c₀ 0 [] past m.context) :
    Yields (Finishing c₀ 0 os) Unrepeated past
      (Engine.finalizeHistory F (Engine.answer F fuel) (Engine.history F fuel) os m)
      (finalizeAll F (Engine.answer F fuel) os m) := by
  refine yields_finalizeAll (L := Finishing c₀ 0)
    (fun _ _ _ holds apart => (holds.spent apart).once) ?skip ?body start
  case skip =>
    intro done o rest past c _ _ holds
    refine ⟨holds.ages, fun apart => ?_, holds.live⟩
    obtain ⟨running, once, gone⟩ := holds.spent apart
    exact ⟨running, once, fun p pos => (gone p pos).imp_left (List.mem_append_left _)⟩
  case body =>
    intro done o rest past h m parts handler holds
    have unlisted : o ∉ done := by
      rw [parts] at nodup
      exact fun listed => (List.nodup_append.1 nodup).2.2 o listed o (.head _) rfl
    let base := past.then m.context (.started (.finalizer h o))
    have started (apart : base.Apart) : Spent 1 (done ++ [o]) base m.context :=
      (holds.spent apart.left).started unlisted
        (holds.live apart.left o (live o (by simp [parts]))) h
    have inside := (((steady_unstarted base).and (steady_live m.context)).upholds (F := F)
      Nat.one_pos (J := fun past => ∀ p, past.finalizations p = base.finalizations p)
      (fun _ _ still => still.1) fun _ _ _ still p => finalizations_then.trans
        (still.1 p)).run fuel (F.finalizer h o) m base
      ⟨holds.ages.heap.valid, fun apart =>
        ⟨(started apart).running, fun _ => rfl, fun _ live => live⟩⟩
    refine yields_around (fun _ _ holds apart => (holds.spent apart).once)
      (I := Finishing c₀ 1 (done ++ [o])) ⟨fun apart p => ?_, fun a m' ran => ?_⟩
      fun past _ c holds => ⟨holds.ages, fun apart =>
        (holds.spent apart.left).moment c (e := .ended (.finalizer h o) false) fun _ => rfl,
        fun apart => holds.live apart.left⟩
    · exact Nat.le_trans (Nat.le_of_eq (inside.told apart p)) ((started apart.left).once p)
    · have later := (Program.run_returns (Engine.answer_returns F fuel) _ ran).1.ages
        holds.ages.heap.valid
      have still := (inside.ended a m' ran).2
      exact ⟨holds.ages.trans valid later, fun apart =>
        (started apart.left).still (still apart).2.1 later (still apart).1,
        fun apart p before => (still apart).2.2 p (holds.live apart.left.left p before)⟩

theorem Finishing.sweep {dead : List ObjectId} (holds : Finishing c₀ 0 dead past c)
    (valid : c₀.heap.Valid) (live : ∀ o ∈ dead, c₀.isLive o) (marked : Nat) (apart : past.Apart) :
    Spent 0 [] past ((c.releaseAll dead).2.recordCollection marked (c.releaseAll dead).1) := by
  have step : c.Step ((c.releaseAll dead).2.recordCollection marked (c.releaseAll dead).1) :=
    .sweep dead marked
  have ages := step.ages holds.ages.heap.valid
  obtain ⟨running, once, gone⟩ := holds.spent apart
  refine ⟨running, once, fun o pos => .inr ?_⟩
  rcases gone o pos with listed | ⟨issued, dead⟩
  · obtain ⟨x, found⟩ := Option.isSome_iff_exists.1 (live o listed)
    exact ⟨ages.heap.issued o (holds.ages.heap.issued o (valid.issued_of_live found)),
      (Context.releaseAll_get? c _ o).trans (if_pos listed)⟩
  · exact ⟨ages.heap.issued o issued, ages.heap.stale o issued dead⟩

/-- No finalizer is running, and none that was started will be started again. -/
def Unspoilt : Condition :=
  fun past c => c.heap.Valid ∧ (past.Apart → Spent 0 [] past c)

theorem upholds_unspoilt (F : Foreign σ) : Upholds F Unspoilt Unrepeated where
  told _ _ holds apart := (holds.2 apart).once
  asked {r} past c holds apart :=
    ((holds.2 apart.left).moment c (e := .asked r) fun _ => rfl).once
  moment past c routine holds := ⟨holds.1, fun apart => by
    have spent := (holds.2 apart.left).moment c routine.finalizes
    rwa [routine.tally] at spent⟩
  act {a x c'} past c ran holds := by
    have ages := ((a.edits ran).reaches.ages holds.1)
    exact ⟨ages.heap.valid, fun apart =>
      ((holds.2 apart.left).moment c (e := .asked (.act a)) fun _ => rfl).later ages⟩
  depth _ _ _ _ holds := ⟨holds.1, fun apart =>
    ⟨(holds.2 apart).running, (holds.2 apart).once, (holds.2 apart).gone⟩⟩
  collect {fuel} m _ past holds := by
    let marking := mark F m.context.heap m.context.heap.live m.context.markRoots
      { state := m.state }
    have start : Finishing m.context 0 [] (past.then m.context (.asked .collect)) m.context :=
      ⟨Context.ages_refl holds.1,
        fun apart => (holds.2 apart.left).moment _ (e := .asked .collect) fun _ => rfl,
        fun _ _ live => live⟩
    have live (o) (listed : o ∈ unmarked m.context marking) : m.context.isLive o :=
      live_of_unmarked listed
    have finishing := yields_finishing F fuel holds.1 (m.context.heap.ids_nodup.filter _)
      live (m := { m with state := marking.state }) start
    refine yields_around (fun _ _ holds apart => (holds.2 apart).once) (I := Unspoilt)
      ⟨finishing.told, fun n m' ended => ?_⟩ fun past _ c holds =>
        ⟨holds.1, fun apart =>
          (holds.2 apart.left).moment c (e := .answered .collect) fun _ => rfl⟩
    obtain ⟨mid, ran, -, rfl⟩ := collect_eq_ok.1 ended
    have finished := finishing.ended () mid ran
    have step : mid.context.Step _ := .sweep (unmarked m.context marking) marking.marked.length
    exact ⟨(step.ages finished.ages.heap.valid).heap.valid, finished.sweep holds.1 live _⟩

end Collector

namespace Engine

open Collector

variable (F : Foreign σ) (fuel : Nat) (p : Program σ α) (m : Machine σ)

def closeHistory : History :=
  finalizeHistory F (answer F fuel) (history F fuel)
    (m.context.heap.ids.filter m.context.isProxy) m

/-- What happens while a program of the embedder runs and the context ends after it. -/
def lifeHistory : History :=
  .andThen (runHistory F fuel p m) (run F fuel p m) fun _ m₁ => closeHistory F fuel m₁

variable {F fuel p m}

theorem mem_closing {o : ObjectId} :
    o ∈ m.context.heap.ids.filter m.context.isProxy ↔ m.context.isProxy o = true := by
  rw [List.mem_filter, Heap.mem_ids]
  exact and_iff_right_of_imp Context.isLive_of_isProxy

theorem yields_close {known : ObjectId → Prop} {past : History}
    (holds : Owed known past m.context) :
    Yields (fun past' _ => ∀ o, past.Saw o ∨ m.context.isProxy o → 0 < past'.finalizations o)
      History.Attended past (closeHistory F fuel m) (close F fuel m) := by
  let present (o : ObjectId) : Prop := m.context.isProxy o
  have start : Settling present m.context [] past m.context :=
    ⟨⟨holds.valid, holds.attended, fun o seen =>
      seen.elim (fun saw => holds.owed o (.inl saw)) fun proxy => .inl proxy⟩,
      Context.ages_refl holds.valid, fun _ proxy => .inr proxy, nofun⟩
  have settling := yields_settling holds.valid
    ((upholds_owed F present).run fuel <| F.finalizer · ·)
    (m.context.heap.ids.filter m.context.isProxy) start
  refine ⟨settling.told, fun a m' ran o seen => ?_⟩
  by_cases proxy : m.context.isProxy o = true
  · exact (settling.ended a m' ran).settled o (mem_closing.2 proxy) proxy
  · have saw := seen.resolve_right proxy
    rw [History.finalizations_append]
    exact Nat.lt_add_right _ ((holds.owed o (.inl saw)).resolve_left proxy)

theorem yields_close_once {past : History} (holds : Unspoilt past m.context) :
    Yields (fun _ _ => True) Unrepeated past (closeHistory F fuel m) (close F fuel m) := by
  have start : Finishing m.context 0 [] past m.context :=
    ⟨Context.ages_refl holds.1, holds.2, fun _ _ live => live⟩
  exact (yields_finishing F fuel holds.1 (m.context.heap.ids_nodup.filter _)
    (fun o listed => Context.isLive_of_isProxy (mem_closing.1 listed)) start).mono
    (fun _ _ _ => trivial) fun _ told => told

theorem life_of_ok {a : α} {m₁ : Machine σ} (ran : run F fuel p m = .ok (a, m₁)) :
    lifeHistory F fuel p m = runHistory F fuel p m ++ closeHistory F fuel m₁ := by
  rw [lifeHistory, ran, History.andThen_ok]

theorem life_of_error {why : Stop} (ran : run F fuel p m = .error why) :
    lifeHistory F fuel p m = runHistory F fuel p m := by
  rw [lifeHistory, ran, History.andThen_error]

section

variable (options : ContextOptions) (s : σ)

theorem owed_create : Owed (fun _ => False) [] (Context.create options) where
  valid := Context.create_valid options
  attended := .nil
  owed o seen := by
    rcases seen with ⟨μ, here, -⟩ | known
    · cases here
    · exact absurd known id

theorem life_attended : (lifeHistory F fuel p ⟨Context.create options, s⟩).Attended := by
  obtain ⟨told, ended⟩ := (upholds_owed F _).run fuel p ⟨Context.create options, s⟩ []
    (owed_create options)
  refine History.Attended.of_flat ?_
  cases ran : run F fuel p ⟨Context.create options, s⟩ with
  | error why =>
    rw [life_of_error ran]
    exact told
  | ok result =>
    obtain ⟨a, m₁⟩ := result
    rw [life_of_ok ran, History.flat_append]
    exact (yields_close (ended a m₁ ran)).told

theorem life_unrepeated : Unrepeated (lifeHistory F fuel p ⟨Context.create options, s⟩) := by
  intro apart o
  obtain ⟨told, ended⟩ := (upholds_unspoilt F).run fuel p ⟨Context.create options, s⟩ []
    ⟨Context.create_valid options, fun _ => ⟨rfl, fun _ => Nat.zero_le _, fun _ => nofun⟩⟩
  rw [← History.finalizations_flat]
  rw [← History.apart_flat] at apart
  cases ran : run F fuel p ⟨Context.create options, s⟩ with
  | error why =>
    rw [life_of_error ran] at apart ⊢
    exact told apart o
  | ok result =>
    obtain ⟨a, m₁⟩ := result
    rw [life_of_ok ran, History.flat_append] at apart ⊢
    exact (yields_close_once (ended a m₁ ran)).told apart o

end

/-- Finalizers from the creation of a context to its end, whatever program runs on it and
whatever the hooks do. A finalizer starts for a live proxy, whose private slot can be
read. When a proxy has died, or the context has ended, its finalizer was started, and
exactly once if no collection was asked for inside a finalizer. -/
theorem finalizers_started (F : Foreign σ) (fuel : Nat) (p : Program σ α)
    (options : ContextOptions) (s : σ) :
    let m : Machine σ := ⟨Context.create options, s⟩
    let t := lifeHistory F fuel p m
    (∀ μ ∈ t, ∀ h o, μ.event = .started (.finalizer h o) →
      μ.context.handler? o = some h ∧ (μ.context.private? o).isSome) ∧
    (t.Throughout fun before μ => ∀ o, before.Saw o → μ.context.isLive o = false →
      0 < before.finalizations o ∧ (t.Apart → before.finalizations o = 1)) ∧
    (∀ a m₁ m₂, run F fuel p m = .ok (a, m₁) → close F fuel m₁ = .ok ((), m₂) →
      ∀ o, (runHistory F fuel p m).Saw o ∨ m₁.context.isProxy o →
      0 < t.finalizations o ∧ (t.Apart → t.finalizations o = 1)) ∧
    (t.Apart → ∀ o, t.finalizations o ≤ 1) := by
  intro m t
  have attended : t.Attended := life_attended options s
  have unrepeated : Unrepeated t := life_unrepeated options s
  refine ⟨fun μ here h o started => ?_, fun before μ after parts o saw dead => ?_,
    fun a m₁ m₂ ran closed o seen => ?_, unrepeated⟩
  · have handler := attended.live μ here h o started
    obtain ⟨s, proxy, -⟩ := Option.map_eq_some_iff.1 handler
    exact ⟨handler, by simp [Context.private?, proxy]⟩
  · have started := attended.mourned before μ after parts o saw dead
    refine ⟨started, fun apart => ?_⟩
    have once := unrepeated apart o
    rw [parts, History.finalizations_append] at once
    omega
  · have upholds := upholds_owed F fun _ => False
    have owed := (upholds.run fuel p m [] (owed_create options)).ended a m₁ ran
    have started := (yields_close owed).ended () m₂ closed o (by simpa using seen)
    have whole : t = runHistory F fuel p m ++ closeHistory F fuel m₁ := life_of_ok ran
    have started : 0 < t.finalizations o := by
      rw [whole]
      simpa using started
    refine ⟨started, fun apart => ?_⟩
    have once := unrepeated apart o
    omega

def onceOnly (p : Program Bool Unit) : Foreign Bool :=
  { Foreign.idle with
    finalize := fun _ _ => .look fun _ ran => if ran then .done () else .store true p }

def newLitter : Program Bool ObjectId :=
  Program.newProxy (.traps ⟨⟨0⟩, [.finalize]⟩ 0 .plain) .undefined none {}

/-- A finalizer that collects is started again, for the same proxy. -/
theorem finalized_twice : ∃ o : ObjectId,
    (lifeHistory (onceOnly (.ask .collect fun _ => .done ())) 4
      (newLitter >>= fun _ => Program.collect) ⟨Context.create {}, false⟩).finalizations o = 2 :=
  ⟨.first ⟨3, by decide⟩, by rfl⟩

/-- A proxy that a finalizer makes while the context ends is left as it is. -/
example :
    let F := onceOnly (newLitter >>= fun _ => .done ())
    let m : Machine Bool := ⟨Context.create {}, false⟩
    let late : ObjectId := .first ⟨4, by decide⟩
    (lifeHistory F 4 newLitter m).finalizations late = 0 ∧
      ((run F 4 newLitter >>= fun _ => close F 4) m).map (·.2.context.isProxy late) = .ok true :=
  ⟨by rfl, by rfl⟩

end Engine

end ProxyEngine
