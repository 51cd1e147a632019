import ProxyEngine.Proofs.Behaviour.Commitment
import ProxyEngine.Proofs.Context.Rewriting
import ProxyEngine.Proofs.Engine.Failure
import ProxyEngine.Proofs.Engine.Listing

/-! Operations are atomic. As long as nothing foreign runs, an operation either does what
it was asked to do, or it leaves the context as it was; failing adds one error object to
the context, wherever below the operation the failure arose. -/

namespace ProxyEngine

variable {σ α β : Type}

namespace Update

def Refuses (u : Update Outcome) : Prop :=
  ∀ ⦃c out c'⦄, u c = some (out, c') → out.isOk = false → c' = c

theorem refuses_pure (out : Outcome) : Refuses (pure out) := by
  rintro c _ _ ⟨⟩ _
  rfl

theorem refuses_look {f : Context → Update Outcome} (branch : ∀ c, Refuses (f c)) :
    Refuses (get >>= f) := by
  intro c out c' ran
  rw [get_bind] at ran
  exact branch c ran

theorem refuses_modifyObject (o : ObjectId) (f : Object → Object) :
    Refuses (do modifyObject o f; return .ok) := by
  rintro c _ _ ⟨⟩ refused
  cases refused

theorem refuses_defineStored (o : ObjectId) (k : PropertyKey) (d : Descriptor) :
    Refuses (defineStored o k d) := by
  refine refuses_look fun c => ?_
  split
  · exact refuses_pure _
  · split
    · split
      · exact refuses_modifyObject o _
      · exact refuses_pure _
    · split
      · exact refuses_modifyObject o _
      · exact refuses_pure _

theorem refuses_deleteStored (o : ObjectId) (k : PropertyKey) : Refuses (deleteStored o k) := by
  refine refuses_look fun c => ?_
  split
  · exact refuses_pure _
  · split
    · exact refuses_modifyObject o _
    · exact refuses_pure _

theorem refuses_storePrototype (o : ObjectId) (proto : Option ObjectId) :
    Refuses (storePrototype o proto) := by
  refine refuses_look fun c => ?_
  split
  · exact refuses_pure _
  · split
    · exact refuses_pure _
    · split
      · exact refuses_pure _
      · exact refuses_modifyObject o _

end Update

/-- What a run says about the machine by the effect that its result has, if nothing foreign
ran: after a failure an error was reported and nothing else was done. -/
structure History.Tells (effect : α → Effect) (m : Machine σ) (t : History)
    (ran : Except Stop (α × Machine σ)) : Prop where
  failed : ∀ {a m'}, ran = .ok (a, m') → effect a = .failed → t.Quiet →
    ∃ kind message, Run.update (Update.report kind message) m = .ok ((), m')
  kept : ∀ {a m'}, ran = .ok (a, m') → effect a = .kept → t.Quiet → m' = m

namespace Engine

open History

variable {effect : α → Effect} {m : Machine σ} {t : History} {x : Run σ α}

theorem tells_stopped (why : Stop) : Tells effect m t (.error why : Except Stop (α × Machine σ)) :=
  ⟨fun ended => (nomatch ended), fun ended => (nomatch ended)⟩

theorem tells_pure {a : α} (good : effect a ≠ .failed) (m : Machine σ) :
    Tells effect m [] ((pure a : Run σ α) m) := by
  constructor
  · rintro _ _ ⟨⟩ bad
    exact (good bad).elim
  · rintro _ _ ⟨⟩ _ _
    rfl

/-- One run after another, where the first one that does not keep the machine is the last. -/
theorem tells_bind {effect' : β → Effect} {f : α → Run σ β} {rest : α → Machine σ → History}
    (first : Tells effect m t (x m))
    (goes : ∀ a m₁, effect a = .kept → Tells effect' m₁ (rest a m₁) (f a m₁))
    (ends : ∀ a, effect a ≠ .kept → ∃ b, f a = pure b ∧ effect' b = effect a) :
    Tells effect' m (t.andThen (x m) rest) ((x >>= f) m) := by
  cases ran : x m with
  | error why =>
    rw [Run.bind_of_error ran]
    exact tells_stopped why
  | ok result =>
    obtain ⟨a, m₁⟩ := result
    rw [Run.bind_of_ok ran, andThen_ok]
    by_cases kept : effect a = .kept
    · have later := goes a m₁ kept
      constructor
      · intro b m' ended bad quiet
        obtain ⟨early, late⟩ := quiet_append.1 quiet
        obtain rfl := first.kept ran kept early
        exact later.failed ended bad late
      · intro b m' ended good quiet
        obtain ⟨early, late⟩ := quiet_append.1 quiet
        obtain rfl := first.kept ran kept early
        exact later.kept ended good late
    · obtain ⟨b, last, same⟩ := ends a kept
      rw [last]
      constructor
      · rintro _ _ ⟨⟩ bad quiet
        exact first.failed ran (same ▸ bad) (quiet_append.1 quiet).1
      · rintro _ _ ⟨⟩ good
        exact (kept (same ▸ good)).elim

theorem tells_around {first : Event} {last : α → Event} {inner : Machine σ → History}
    (tells : Tells effect m (inner m) (x m)) :
    Tells effect m (around first last x inner m) (x m) where
  failed ended bad quiet := tells.failed ended bad (quiet_of_around quiet)
  kept ended good quiet := tells.kept ended good (quiet_of_around quiet)

theorem tells_nested (tells : Tells effect (m.deeper 1) t (x (m.deeper 1))) :
    Tells effect m t.below (x.nested 1 m) := by
  cases ran : x (m.deeper 1) with
  | error why =>
    rw [Run.nested_of_error ran]
    exact tells_stopped why
  | ok result =>
    obtain ⟨a, m₁⟩ := result
    rw [Run.nested_of_ok ran]
    constructor
    · rintro _ _ ⟨⟩ bad quiet
      obtain ⟨kind, message, reported⟩ := tells.failed ran bad (quiet_below.1 quiet)
      refine ⟨kind, message, ?_⟩
      rw [← Run.nested_update 1 (Update.level_report kind message)]
      exact Run.nested_of_ok reported
    · rintro _ _ ⟨⟩ good quiet
      rw [tells.kept ran good (quiet_below.1 quiet), Machine.shallower_deeper]

theorem tells_stored {u : Update Outcome} (refuses : u.Refuses) (t : History) (m : Machine σ) :
    Tells Outcome.effect m t (Run.update u m) := by
  constructor
  · intro out m' _ failed
    exact (out.effect_ne_failed failed).elim
  · intro out m' ended kept _
    obtain ⟨c, ran, rfl⟩ := Run.update_eq_ok.1 ended
    have refused : out.isOk = false := by
      cases ok : out.isOk with
      | false => rfl
      | true =>
        rw [Outcome.effect, ok] at kept
        cases kept
    rw [refuses ran refused]

theorem tells_nothing (changes : ∀ a, effect a = .changed) (t : History)
    (ran : Except Stop (α × Machine σ)) : Tells effect m t ran := by
  constructor
  · intro a _ _ failed
    exact nomatch (changes a).symm.trans failed
  · intro a _ _ kept
    exact nomatch (changes a).symm.trans kept

section

variable {answer : Answerer σ} {asked : Request → Machine σ → History}

theorem tells_foreign {b : Body} (foreign : b.isForeign = true) (fails : α → Bool)
    (p : Program σ α) (m : Machine σ) :
    Tells effect m (bodyHistory answer asked b fails p m) (p.run answer m) where
  failed _ _ quiet := absurd quiet (not_quiet_bodyHistory foreign)
  kept _ _ quiet := absurd quiet (not_quiet_bodyHistory foreign)

variable (answers : ∀ r m, r.SettlesOrQuotes → Tells r.effect m (asked r m) (answer r m))

include answers

theorem tells_program {p : Program σ α} (commits : p.Commits Request.SettlesOrQuotes effect)
    (m : Machine σ) : Tells effect m (p.history answer asked m) (p.run answer m) := by
  induction commits generalizing m with
  | done good => exact tells_pure good m
  | look _ ih => exact ih m.context m.state m
  | @ask r next holds _ ends ih =>
    refine tells_bind (answers r m holds) (fun x m₁ kept => ih x kept m₁) fun x changed => ?_
    obtain ⟨a, last, same⟩ := ends x changed
    exact ⟨a, congrArg (Program.run answer) last, same⟩

variable {s : Shape} {op : Op s}

theorem tells_reads {p : Program σ α} (commits : p.Commits Request.Reads effect) (m : Machine σ) :
    Tells effect m (p.history answer asked m) (p.run answer m) :=
  tells_program answers (commits.mono fun _ reads => .inl reads.settles) m

theorem tells_method (F : Foreign σ) (h : Handler) (other : op.slot ≠ .construct) (m : Machine σ) :
    Tells op.effect m (bodyHistory answer asked (.method h op) s.isFailure (F.method h op) m)
      ((F.method h op).run answer m) := by
  cases trapped : h.trapped? op.slot with
  | some id => exact tells_foreign (by simp [Body.isForeign, trapped]) _ _ m
  | none =>
    refine tells_around ?_
    rw [F.method_of_empty trapped]
    exact tells_program answers (h.base.commits_method other) m

theorem tells_atDepth {effect : s.Answer → Effect} {b : Body} {p : Program σ s.Answer}
    (body : ∀ m, Tells effect m (bodyHistory answer asked b s.isFailure p m) (p.run answer m))
    (gives : (Program.giveUp s .internalError "too much recursion" : Program σ _).Commits
      Request.Reads effect) (m : Machine σ) :
    Tells effect m (depthHistory answer asked s b p m) (atDepth answer s (p.run answer) m) := by
  unfold depthHistory
  by_cases room : m.context.depth < m.context.maxDepth
  · rw [if_pos room, atDepth_of_room room]
    exact tells_nested (body (m.deeper 1))
  · rw [if_neg room, atDepth_of_full room]
    exact tells_reads answers gives m

theorem tells_dispatch (F : Foreign σ) (other : op.slot ≠ .construct) (m : Machine σ) :
    Tells op.effect m (dispatchHistory F answer asked op m) (dispatch F answer op m) := by
  unfold dispatchHistory dispatch
  rw [Run.bind_context]
  cases m.context.get? op.subject with
  | none => exact tells_reads answers (Program.commits_givenUp op ..) m
  | some x =>
    dsimp only
    cases x.proxy? with
    | none => exact tells_program answers (Ordinary.commits other) m
    | some p =>
      exact tells_atDepth answers (tells_method answers F p.handler other)
        (Program.commits_givenUp op ..) m

theorem tells_perform (F : Foreign σ) (other : op.slot ≠ .construct) (m : Machine σ) :
    Tells op.effect m (performHistory F answer asked op m) (perform F answer op m) := by
  have same : op.normalized = op := by
    cases op <;> first | rfl | exact (other rfl).elim
  refine tells_bind (tells_reads answers (commits_incapable? other) m)
    (fun early m₁ kept => ?_) fun early failed => ?_
  · cases early with
    | some a =>
      refine tells_pure (fun failed => ?_) m₁
      rw [Op.effect_eq_failed] at failed
      rw [Option.any_some, failed] at kept
      cases kept
    | none =>
      rw [same]
      exact tells_dispatch answers F other m₁
  · cases early with
    | some a =>
      cases bad : s.isFailure a with
      | true => exact ⟨a, rfl, by rw [Op.effect_eq_failed.2 bad, Option.any_some, bad]; rfl⟩
      | false =>
        rw [Option.any_some, bad] at failed
        exact (failed rfl).elim
    | none => exact (failed rfl).elim

theorem tells_step (F : Foreign σ) {r : Request} (settles : r.SettlesOrQuotes) (m : Machine σ) :
    Tells r.effect m (stepHistory F answer asked r m) (step F answer r m) := by
  obtain settles | ⟨text, rfl⟩ := settles
  · cases r with
    | act a =>
      cases a with
      | report kind message =>
        exact ⟨fun ended _ _ => ⟨kind, message, ended⟩, fun _ kept => (nomatch kept)⟩
      | defineStored o k d => exact tells_stored (Update.refuses_defineStored o k d) _ m
      | deleteStored o k => exact tells_stored (Update.refuses_deleteStored o k) _ m
      | storePrototype o p => exact tells_stored (Update.refuses_storePrototype o p) _ m
      | fixPrototype | storeExtensible => exact tells_nothing (fun _ => rfl) _ _
      | _ => cases settles
    | perform op => exact tells_perform answers F settles m
    | runFunction code this args =>
      exact tells_atDepth answers (s := .value) (fun m => tells_foreign rfl _ _ m)
        (Program.commits_giveUp (s := .value) (fun _ => rfl) nofun _ _) m
    | enumerateFrom o visited seen listed =>
      exact tells_reads answers ((Ordinary.propagates_enumerateFrom o visited seen listed).commits
        (Ordinary.only_enumerateFrom o visited seen listed)) m
    | _ => cases settles
  · exact tells_nothing (fun _ => rfl) _ _

end

theorem tells_answer (F : Foreign σ) (fuel : Nat) {r : Request} (settles : r.SettlesOrQuotes)
    (m : Machine σ) : Tells r.effect m (history F fuel r m) (Engine.answer F fuel r m) := by
  induction fuel generalizing r m with
  | zero => exact tells_stopped _
  | succ fuel ih => exact tells_around (tells_step (fun r m settles => ih settles m) F settles m)

end Engine

structure Context.Raised (c : Context) (kind : ErrorKind) (message : String) (c' : Context) :
    Prop extends c.Reported kind message c' where
  named : ∀ e, c'.pending = some (.object e) →
    c'.get? e = some (Update.errorObject c kind message)

namespace Engine

/-- Where nothing foreign runs, an operation that fails adds one error, an operation that is
refused and one that reads leave everything as it was. Whether it fails or not, an operation
that lists keys leaves in place what its vector held, and what it adds there and does to the
machine is the same for every vector. -/
theorem operations_atomic (F : Foreign σ) (fuel : Nat) {m : Machine σ}
    (reachable : m.context.Reachable) :
    (∀ {s : Shape} (op : Op s) (a : s.Answer) (m' : Machine σ), op.slot ≠ .construct →
      issue F fuel op m = .ok (a, m') → (history F fuel (.perform op) m).Quiet →
        (s.isFailure a = true → m'.state = m.state ∧
          ∃ kind message, m.context.Raised kind message m'.context) ∧
        (s.isRefusal a = true → m' = m) ∧
        (op.slot.stores = false → s.isFailure a = false → m' = m)) ∧
    ∀ {listed : List PropertyKey} (op : Op (.keys listed)) (l : Listing) (m' : Machine σ),
      issue F fuel op m = .ok (l, m') → (history F fuel (.perform op) m).Quiet →
        ∃ added, l.keys = listed ++ added ∧ ∀ other, issue F fuel (op.into other) m =
          .ok (({ keys := other ++ added, failed := l.failed } : Listing), m') := by
  refine ⟨fun {s} op a m' other ended quiet => ?_, fun {listed} op l m' ended quiet => ?_⟩
  · have tells := tells_answer F fuel (r := .perform op) (.inl other) m
    refine ⟨fun bad => ?_, fun refused => ?_, fun reads good => ?_⟩
    · obtain ⟨kind, message, reported⟩ := tells.failed ended (Op.effect_eq_failed.2 bad) quiet
      obtain ⟨c, ran, rfl⟩ := Run.update_eq_ok.1 reported
      exact ⟨rfl, kind, message, Update.reported reachable.valid ran, fun e =>
        Update.get?_report reachable.valid ran⟩
    · exact tells.kept ended (op.effect_of_refusal refused) quiet
    · exact tells.kept ended ((op.effect_of_reads reads a).trans (by rw [good]; rfl)) quiet
  · rw [← op.into_self] at ended quiet
    exact (appends_answer F fuel).perform op listed m ended quiet

def hollow : ObjectId × Context :=
  (Update.newProxy (.builtin .wrapper) .undefined none {} (Context.create {})).getD default

theorem hollow_raises : ∃ m' kind message,
    issue Foreign.idle 3 (.get hollow.1 .undefined .void) ⟨hollow.2, ()⟩ = .ok (.error {}, m') ∧
      hollow.2.Raised kind message m'.context := by
  have made : Update.newProxy (.builtin .wrapper) .undefined none {} (Context.create {}) =
      some hollow := rfl
  have reachable : hollow.2.Reachable := ⟨{}, (Update.tightens_alloc _ _ made).edits.reaches⟩
  have quiet : (history Foreign.idle 3 (.perform (.get hollow.1 .undefined .void))
      (⟨hollow.2, ()⟩ : Machine Unit)).Quiet := List.all_eq_true.1 rfl
  obtain ⟨m', ended⟩ : ∃ m', issue Foreign.idle 3 (.get hollow.1 .undefined .void)
      (⟨hollow.2, ()⟩ : Machine Unit) = .ok (.error {}, m') := ⟨_, rfl⟩
  have atomic := (operations_atomic Foreign.idle 3 (m := ⟨hollow.2, ()⟩) reachable).1
    (.get hollow.1 .undefined .void) (.error {}) m' nofun ended quiet
  obtain ⟨-, kind, message, raised⟩ := atomic.1 rfl
  exact ⟨m', kind, message, ended, raised⟩

end Engine

end ProxyEngine
