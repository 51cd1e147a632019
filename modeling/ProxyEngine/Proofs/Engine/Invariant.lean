import ProxyEngine.Proofs.Engine.Composition

/-! Invariants that know the past. An invariant of this kind relates the context to
everything that happened so far. It is upheld when single moments, single actions,
a change of the dispatch depth and whole collections keep it; then every run keeps
it, and also a run that was stopped leaves a history behind of which holds what
the invariant says about histories. -/

namespace ProxyEngine

variable {σ α β : Type}

namespace History

def flat (t : History) : History :=
  t.map fun μ => { μ with level := 0 }

variable {t t' : History}

@[simp] theorem flat_nil : flat [] = [] := rfl

@[simp] theorem flat_cons (μ : Moment) : flat (μ :: t) = { μ with level := 0 } :: t.flat := rfl

@[simp] theorem flat_append : flat (t ++ t') = t.flat ++ t'.flat :=
  List.map_append

@[simp] theorem flat_below : t.below.flat = t.flat := by
  simp [flat, below, Function.comp_def, Place.below]

theorem mem_flat {μ : Moment} : μ ∈ t.flat ↔ ∃ ν ∈ t, { ν with level := 0 } = μ :=
  List.mem_map

end History

def Request.isCollect : Request → Bool
  | collect => true
  | _ => false

def Event.Routine : Event → Prop
  | asked r => r.Composite
  | answered r => r.isCollect = false
  | started b | ended b _ => b.isFinalizer = false

theorem Request.Composite.routine {r : Request} (composite : r.Composite) :
    r.isCollect = false := by
  cases r <;> first | rfl | exact absurd composite id

abbrev Condition := History → Context → Prop

/-- The past of a context after one more moment. -/
def History.then (past : History) (c : Context) (e : Event) : History :=
  past ++ [⟨{ context := c }, e⟩]

namespace History

variable {t t' past : History} {c : Context} {e : Event} {P : History → Moment → Prop}

def Throughout (P : History → Moment → Prop) (t : History) : Prop :=
  ∀ (before : History) μ after, t = before ++ μ :: after → P before μ

theorem throughout_cons {μ : Moment} :
    Throughout P (μ :: t) ↔ P [] μ ∧ t.Throughout fun before => P (μ :: before) := by
  constructor
  · intro holds
    refine ⟨holds [] μ t rfl, fun before ν after parts => ?_⟩
    exact holds (μ :: before) ν after (by rw [parts, List.cons_append])
  · rintro ⟨first, rest⟩ before ν after parts
    cases before with
    | nil =>
      cases parts
      exact first
    | cons _ before =>
      cases parts
      exact rest before ν after rfl

instance Throughout.decide : (t : History) → (P : History → Moment → Prop) →
    [∀ before μ, Decidable (P before μ)] → Decidable (t.Throughout P)
  | [], _, _ => isTrue fun _ _ _ parts => absurd parts (by simp)
  | μ :: t, P, _ =>
    have := Throughout.decide t fun before => P (μ :: before)
    decidable_of_iff _ throughout_cons.symm

theorem Throughout.nil : Throughout P [] :=
  fun _ _ _ parts => absurd parts (by simp)

theorem Throughout.left (holds : (t ++ t').Throughout P) : t.Throughout P := by
  intro before μ after parts
  exact holds before μ (after ++ t') (by simp [parts])

theorem Throughout.now (holds : (past.then c e).Throughout P) : P past ⟨{ context := c }, e⟩ :=
  holds past _ [] rfl

theorem then_eq {before after : History} {μ : Moment}
    (parts : past.then c e = before ++ μ :: after) :
    before = past ∧ μ = ⟨{ context := c }, e⟩ ∨ ∃ rest, past = before ++ μ :: rest := by
  rcases List.eq_nil_or_concat after with rfl | ⟨rest, ν, rfl⟩
  · left
    simpa [eq_comm] using List.append_inj' parts rfl
  · right
    have parts : past ++ [⟨{ context := c }, e⟩] = before ++ μ :: rest ++ [ν] := by
      simpa [History.then] using parts
    exact ⟨rest, (List.append_inj' parts rfl).1⟩

theorem Throughout.then (holds : past.Throughout P) (now : P past ⟨{ context := c }, e⟩) :
    (past.then c e).Throughout P := by
  intro before μ after parts
  rcases then_eq parts with ⟨rfl, rfl⟩ | ⟨rest, parts⟩
  · exact now
  · exact holds before μ rest parts

theorem throughout_flat (level : ∀ before μ, P (flat before) { μ with level := 0 } ↔ P before μ) :
    t.flat.Throughout P ↔ t.Throughout P := by
  constructor
  · intro holds before μ after parts
    refine (level before μ).1 (holds _ _ (flat after) ?_)
    simp [parts]
  · intro holds before μ after parts
    obtain ⟨t₁, t₂, rfl, rfl, rest⟩ := List.map_eq_append_iff.1 parts
    obtain ⟨ν, t₂, rfl, rfl, -⟩ := List.map_eq_cons_iff.1 rest
    exact (level t₁ ν).2 (holds t₁ ν t₂ rfl)

end History

/-- After the past `past` the history has `J`, and the end, if there is one, has `I`. -/
structure Yields (I : Condition) (J : History → Prop) (past t : History)
    (ran : Except Stop (α × Machine σ)) : Prop where
  told : J (past ++ t.flat)
  ended : ∀ a m', ran = .ok (a, m') → I (past ++ t.flat) m'.context

/-- What starts with `I` has `I` again at its end. -/
def Keeps (I : Condition) (J : History → Prop) : Account σ := fun m t ran =>
  ∀ past, I past m.context → Yields I J past t ran

/-- Everything that happens keeps `I`, which says `J` of the past. -/
structure Upholds (F : Foreign σ) (I : Condition) (J : History → Prop) : Prop where
  told : ∀ past c, I past c → J past
  asked : ∀ {r : Request} (past c), I past c → J (past.then c (.asked r))
  moment : ∀ {e : Event} (past c), e.Routine → I past c → I (past.then c e) c
  act : ∀ {a : Action} {x c'} (past c), a.update c = some (x, c') → I past c →
    I (past.then c (.asked (.act a))) c'
  depth : ∀ (past) (c : Context) (d : Nat), c.Step { c with depth := d } → I past c →
    I past { c with depth := d }
  collect : ∀ {fuel : Nat} (m : Machine σ),
    (∀ h o m, Keeps I J m (Engine.runHistory F fuel (F.finalizer h o) m)
      (Engine.run F fuel (F.finalizer h o) m)) →
    Keeps I J m (Engine.history F (fuel + 1) .collect m) (Engine.answer F (fuel + 1) .collect m)

section

variable {I I' : Condition} {J J' : History → Prop} {past t : History} {m : Machine σ}
  {x : Run σ α}

theorem yields_of_stopped {why : Stop} (told : J (past ++ t.flat)) :
    Yields I J past t (.error why : Except Stop (α × Machine σ)) :=
  ⟨told, fun _ _ ended => nomatch ended⟩

theorem yields_of_ended (told : ∀ past c, I past c → J past) {a : α} {m' : Machine σ}
    (holds : I (past ++ t.flat) m'.context) :
    Yields I J past t (.ok (a, m') : Except Stop (α × Machine σ)) := by
  refine ⟨told _ _ holds, ?_⟩
  rintro _ _ ⟨⟩
  exact holds

theorem Yields.mono {ran : Except Stop (α × Machine σ)} (yields : Yields I J past t ran)
    (holds : ∀ past c, I past c → I' past c) (told : ∀ past, J past → J' past) :
    Yields I' J' past t ran :=
  ⟨told _ yields.told, fun a m' ended => holds _ _ (yields.ended a m' ended)⟩

theorem yields_bind {f : α → Run σ β} {rest : α → Machine σ → History}
    (first : Yields I J past t (x m))
    (more : ∀ a m₁ past, I past m₁.context → Yields I' J past (rest a m₁) (f a m₁)) :
    Yields I' J past (t.andThen (x m) rest) ((x >>= f) m) := by
  cases ran : x m with
  | error why =>
    rw [Run.bind_of_error ran, History.andThen_error]
    exact yields_of_stopped first.told
  | ok result =>
    obtain ⟨a, m₁⟩ := result
    obtain ⟨told, ended⟩ := more a m₁ _ (first.ended a m₁ ran)
    rw [Run.bind_of_ok ran, History.andThen_ok]
    constructor
    · rw [History.flat_append, ← List.append_assoc]
      exact told
    · intro b m' done
      rw [History.flat_append, ← List.append_assoc]
      exact ended b m' done

theorem yields_around (told : ∀ past c, I' past c → J past) {first : Event} {last : α → Event}
    {inner : Machine σ → History}
    (yields : Yields I J (past.then m.context first) (inner m) (x m))
    (closes : ∀ past a c, I past c → I' (past.then c (last a)) c) :
    Yields I' J past (.around first last x inner m) (x m) := by
  have opened (t : History) :
      past ++ History.flat (m.moment first :: t) = past.then m.context first ++ t.flat := by
    simp [History.then, Machine.moment]
  unfold History.around
  cases ran : x m with
  | error why =>
    rw [History.andThen_error]
    exact yields_of_stopped (opened _ ▸ yields.told)
  | ok result =>
    obtain ⟨a, m₁⟩ := result
    refine yields_of_ended told ?_
    rw [History.andThen_ok, opened, History.flat_append, ← List.append_assoc]
    exact closes _ a _ (yields.ended a m₁ ran)

theorem keeps_chains (told : ∀ past c, I past c → J past) : Chains (Keeps I J : Account σ) where
  pure a m past holds := yields_of_ended told (by simpa using holds)
  store kept := kept
  bind _ first more past holds := yields_bind (first past holds) more

theorem yields_finalizeAll {F : Foreign σ} {fuel : Nat} {L : List ObjectId → Condition}
    (told : ∀ done past c, L done past c → J past) {all : List ObjectId}
    (skip : ∀ done o rest past c, all = done ++ o :: rest → c.handler? o = none →
      L done past c → L (done ++ [o]) past c)
    (body : ∀ done o rest past h (m : Machine σ), all = done ++ o :: rest →
      m.context.handler? o = some h → L done past m.context →
      Yields (L (done ++ [o])) J past
        (Engine.bodyHistory (Engine.answer F fuel) (Engine.history F fuel) (.finalizer h o)
          (fun _ => false) (F.finalizer h o) m)
        (Engine.run F fuel (F.finalizer h o) m))
    (holds : L [] past m.context) :
    Yields (L all) J past
      (Engine.finalizeHistory F (Engine.answer F fuel) (Engine.history F fuel) all m)
      (Collector.finalizeAll F (Engine.answer F fuel) all m) := by
  suffices rest : ∀ rest done m past, all = done ++ rest → L done past m.context →
      Yields (L all) J past
        (Engine.finalizeHistory F (Engine.answer F fuel) (Engine.history F fuel) rest m)
        (Collector.finalizeAll F (Engine.answer F fuel) rest m) from
    rest all [] m past rfl holds
  intro rest
  induction rest with
  | nil =>
    intro done m past parts holds
    obtain rfl : all = done := by simpa using parts
    exact yields_of_ended (told all) (by simpa [Engine.finalizeHistory] using holds)
  | cons o rest ih =>
    intro done m past parts holds
    have later : all = done ++ [o] ++ rest := by simpa using parts
    unfold Engine.finalizeHistory Collector.finalizeAll
    rw [Run.bind_context]
    cases handler : m.context.handler? o with
    | none => exact ih _ m past later (skip done o rest past _ parts handler holds)
    | some h =>
      exact yields_bind (body done o rest past h m parts handler holds)
        fun _ m₁ past holds => ih _ m₁ past later holds

/-- An invariant that every moment keeps is kept by a collection if the sweep keeps it. What
is swept is what was not marked when the collection was asked for. -/
theorem keeps_collect {F : Foreign σ} {fuel : Nat} (told : ∀ past c, I past c → J past)
    (moment : ∀ {e : Event} (past c), I past c → I (past.then c e) c)
    (sweep : ∀ {past₀ : History} {c₀ : Context} (state : σ) (past : History) (c : Context)
      (marked : Nat), I past₀ c₀ → ⟨{ context := c₀ }, .asked .collect⟩ ∈ past → I past c →
      let dead := Collector.unmarked c₀
        (Collector.mark F c₀.heap c₀.heap.live c₀.markRoots { state })
      I past ((c.releaseAll dead).2.recordCollection marked (c.releaseAll dead).1))
    (finalizers : ∀ h o m, Keeps I J m (Engine.runHistory F fuel (F.finalizer h o) m)
      (Engine.run F fuel (F.finalizer h o) m)) (m : Machine σ) :
    Keeps I J m (Engine.history F (fuel + 1) .collect m)
      (Engine.answer F (fuel + 1) .collect m) := by
  intro past holds
  let marking := Collector.mark F m.context.heap m.context.heap.live m.context.markRoots
    { state := m.state }
  have finalizing : Yields I J (past.then m.context (.asked .collect))
      (Engine.finalizeHistory F (Engine.answer F fuel) (Engine.history F fuel)
        (Collector.unmarked m.context marking) { m with state := marking.state })
      (Collector.finalizeAll F (Engine.answer F fuel)
        (Collector.unmarked m.context marking) { m with state := marking.state }) :=
    yields_finalizeAll (L := fun _ => I) (fun _ => told) (fun _ _ _ _ _ _ _ holds => holds)
      (fun _ _ _ past h m _ _ holds =>
        yields_around told (finalizers h _ m _ (moment past _ holds)) fun past _ c => moment past c)
      (moment past _ holds)
  refine yields_around told (I := I) ⟨finalizing.told, fun n m' ended => ?_⟩
    fun past _ c => moment past c
  obtain ⟨mid, ran, -, rfl⟩ := Collector.collect_eq_ok.1 ended
  have asked : ⟨{ context := m.context }, .asked .collect⟩ ∈
      past.then m.context (.asked .collect) := List.mem_append_right _ (.head _)
  exact sweep m.state _ mid.context _ holds (List.mem_append_left _ asked)
    (finalizing.ended () mid ran)

end

namespace Upholds

variable {F : Foreign σ} {I : Condition} {J : History → Prop} (upholds : Upholds F I J)

include upholds

theorem composes : Composes F (fun _ => True) (Keeps I J) where
  toChains := keeps_chains upholds.told
  builtin _ _ := trivial
  unanswered m _ past holds := yields_of_stopped (upholds.asked past _ holds)
  act {a} m _ past holds := by
    unfold History.around
    cases ran : a.update m.context with
    | none =>
      have full : (Run.update a.update : Run σ a.Response) m = .error .heapFull := by
        simp [Run.update, ran]
      rw [full]
      exact yields_of_stopped (upholds.asked past _ holds)
    | some result =>
      obtain ⟨x, c⟩ := result
      rw [Run.update_of_some ran]
      refine yields_of_ended upholds.told ?_
      have answered :=
        upholds.moment (e := .answered (.act a)) _ c rfl (upholds.act past _ ran holds)
      simpa [History.then, Machine.moment] using answered
  request _ composite kept past holds :=
    yields_around upholds.told (kept _ (upholds.moment past _ composite holds))
      fun past _ c => upholds.moment past c composite.routine
  body entered kept past holds :=
    yields_around upholds.told (kept _ (upholds.moment past _ entered holds))
      fun past _ c => upholds.moment past c entered
  nested {_ x t m} room kept past holds := by
    have inside := kept past (upholds.depth past _ _ (.enter room) holds)
    cases ran : x (m.deeper 1) with
    | error why =>
      rw [Run.nested_of_error ran]
      refine yields_of_stopped ?_
      rw [History.flat_below]
      exact inside.told
    | ok result =>
      obtain ⟨a, m₁⟩ := result
      rw [Run.nested_of_ok ran]
      refine yields_of_ended upholds.told ?_
      rw [History.flat_below]
      exact upholds.depth _ _ _ .leave (inside.ended a m₁ ran)
  collect m _ finalizers := upholds.collect m finalizers

theorem answer (fuel : Nat) (r : Request) (m : Machine σ) :
    Keeps I J m (Engine.history F fuel r m) (Engine.answer F fuel r m) :=
  upholds.composes.answer F.only_any fuel trivial m

theorem run (fuel : Nat) (p : Program σ α) (m : Machine σ) :
    Keeps I J m (Engine.runHistory F fuel p m) (Engine.run F fuel p m) :=
  upholds.composes.run F.only_any fuel (.any p) m

end Upholds

end ProxyEngine
