import ProxyEngine.Proofs.Engine.Dispatch
import ProxyEngine.Proofs.Engine.History
import ProxyEngine.Proofs.Engine.Runs

/-! The two channels of failure agree. An operation that fails leaves an exception
pending, provided the traps and host functions that failed on the way did, and one
that succeeds without running any leaves the pending exception alone. Both follow
from the same facts about single requests: a report is the last thing a built-in
method does, and it is the only thing that touches the pending exception. -/

namespace ProxyEngine

def Context.KeepsPending (c c' : Context) : Prop :=
  c'.pending = c.pending

instance : Std.Refl Context.KeepsPending := ⟨fun _ => rfl⟩

instance : IsTrans Context Context.KeepsPending := ⟨fun _ _ _ first second => second.trans first⟩

namespace Update

variable {α : Type}

def KeepsPending (u : Update α) : Prop :=
  Relates Context.KeepsPending u

theorem keepsPending_get : KeepsPending get := by
  rintro c _ _ ⟨⟩
  rfl

theorem keepsPending_modifyObject (o : ObjectId) (f : Object → Object) :
    KeepsPending (modifyObject o f) := by
  rintro c _ _ ⟨⟩
  rfl

theorem keepsPending_alloc (x : Object) : KeepsPending (alloc x) := by
  intro c o c' ran
  obtain ⟨_, -, answer⟩ := Option.map_eq_some_iff.1 ran
  cases answer
  rfl

theorem keepsPending_intern (s : String) : KeepsPending (intern s) := by
  rintro c _ _ ⟨⟩
  rfl

theorem keepsPending_key (name : String) : KeepsPending (key name) := by
  unfold key
  split
  · exact .pure _
  · exact (keepsPending_intern name).map _

theorem keepsPending_defineStored (o : ObjectId) (k : PropertyKey) (d : Descriptor) :
    KeepsPending (defineStored o k d) := by
  refine keepsPending_get.bind fun c => ?_
  split
  · exact .pure _
  · split
    · split
      · exact (keepsPending_modifyObject o _).bind fun _ => .pure _
      · exact .pure _
    · split
      · exact (keepsPending_modifyObject o _).bind fun _ => .pure _
      · exact .pure _

theorem keepsPending_deleteStored (o : ObjectId) (k : PropertyKey) :
    KeepsPending (deleteStored o k) := by
  refine keepsPending_get.bind fun c => ?_
  split
  · exact .pure _
  · split
    · exact (keepsPending_modifyObject o _).bind fun _ => .pure _
    · exact .pure _

theorem keepsPending_storePrototype (o : ObjectId) (proto : Option ObjectId) :
    KeepsPending (storePrototype o proto) := by
  refine keepsPending_get.bind fun c => ?_
  split
  · exact .pure _
  · split
    · exact .pure _
    · split
      · exact .pure _
      · exact (keepsPending_modifyObject o _).bind fun _ => .pure _

theorem report_pending {kind : ErrorKind} {message : String} {c c' : Context} {a : Unit}
    (ran : report kind message c = some (a, c')) : c'.pending.isSome := by
  obtain ⟨e, c₁, -, ran⟩ := bind_eq_some.1 ran
  obtain ⟨k, c₂, -, ran⟩ := bind_eq_some.1 ran
  obtain ⟨name, c₃, -, ran⟩ := bind_eq_some.1 ran
  obtain ⟨_, c₄, -, ⟨⟩⟩ := bind_eq_some.1 ran
  rfl

end Update

theorem Action.Builtin.keepsPending {a : Action} (builtin : a.Builtin)
    (silent : ∀ x, (Request.act a).isFailure x = false) : a.update.KeepsPending := by
  cases a with
  | newString text => exact (Update.keepsPending_intern text).map _
  | key name => exact Update.keepsPending_key name
  | newObject prototype => exact Update.keepsPending_alloc _
  | defineStored o k d => exact Update.keepsPending_defineStored o k d
  | deleteStored o k => exact Update.keepsPending_deleteStored o k
  | storePrototype o proto => exact Update.keepsPending_storePrototype o proto
  | storeExtensible o extensible => exact Update.keepsPending_modifyObject o _
  | fixPrototype o => exact Update.keepsPending_modifyObject o _
  | report kind message => cases silent ()
  | _ => cases builtin

variable {σ α β : Type}

/-- What a run with history `t` owes for how it ends: an exception for a failure, and no
trace of one for a success. -/
structure History.Accounts (fails : α → Bool) (m : Machine σ) (t : History)
    (ran : Except Stop (α × Machine σ)) : Prop where
  failure : ∀ {a m'}, ran = .ok (a, m') → fails a = true → t.Candid → m'.context.pending.isSome
  success : ∀ {a m'}, ran = .ok (a, m') → fails a = false → t.Quiet →
    m'.context.pending = m.context.pending

namespace Engine

open History

variable {fails : α → Bool} {m : Machine σ} {t : History} {x : Run σ α}

theorem accounts_stopped (why : Stop) :
    Accounts fails m t (.error why : Except Stop (α × Machine σ)) :=
  ⟨fun ended => (nomatch ended), fun ended => (nomatch ended)⟩

theorem accounts_pure {a : α} (good : fails a = false) (m : Machine σ) :
    Accounts fails m [] ((pure a : Run σ α) m) := by
  constructor
  · rintro _ _ ⟨⟩ bad
    exact nomatch good.symm.trans bad
  · rintro _ _ ⟨⟩ _ _
    rfl

theorem accounts_bind {fails' : β → Bool} {f : α → Run σ β} {rest : α → Machine σ → History}
    (first : Accounts fails m t (x m))
    (goes : ∀ a m₁, fails a = false → Accounts fails' m₁ (rest a m₁) (f a m₁))
    (ends : ∀ a, fails a = true → ∃ b, f a = pure b ∧ fails' b = true) :
    Accounts fails' m (t.andThen (x m) rest) ((x >>= f) m) := by
  cases ran : x m with
  | error why =>
    rw [Run.bind_of_error ran]
    exact accounts_stopped why
  | ok result =>
    obtain ⟨a, m₁⟩ := result
    rw [Run.bind_of_ok ran, andThen_ok]
    cases failed : fails a with
    | false =>
      have later := goes a m₁ failed
      refine ⟨fun ended bad candid => later.failure ended bad (candid_append.1 candid).2,
        fun ended good quiet => ?_⟩
      obtain ⟨early, late⟩ := quiet_append.1 quiet
      exact (later.success ended good late).trans (first.success ran failed early)
    | true =>
      -- Nothing comes after the failure, so its exception is still there.
      obtain ⟨b, last, bad⟩ := ends a failed
      rw [last]
      constructor
      · rintro _ _ ⟨⟩ _ candid
        exact first.failure ran failed (candid_append.1 candid).1
      · rintro _ _ ⟨⟩ good
        exact nomatch good.symm.trans bad

theorem accounts_around {first : Event} {last : α → Event} {inner : Machine σ → History}
    (accounts : Accounts fails m (inner m) (x m)) :
    Accounts fails m (around first last x inner m) (x m) := by
  refine ⟨fun ended bad candid => accounts.failure ended bad ?_,
    fun ended good quiet => accounts.success ended good ?_⟩
  · exact (candid_append.1 (candid_cons.1 candid).2).1
  · exact (quiet_append.1 (quiet_cons.1 quiet).2).1

theorem accounts_nested (accounts : Accounts fails (m.deeper 1) t (x (m.deeper 1))) :
    Accounts fails m t.below (x.nested 1 m) := by
  cases ran : x (m.deeper 1) with
  | error why =>
    rw [Run.nested_of_error ran]
    exact accounts_stopped why
  | ok result =>
    obtain ⟨a, m₁⟩ := result
    rw [Run.nested_of_ok ran]
    constructor
    · rintro _ _ ⟨⟩ bad candid
      have pending := accounts.failure ran bad (candid_below.1 candid)
      exact pending
    · rintro _ _ ⟨⟩ good quiet
      have same := accounts.success ran good (quiet_below.1 quiet)
      exact same

section

variable {answer : Answerer σ} {asked : Request → Machine σ → History}

theorem accounts_foreign {b : Body} (foreign : b.isForeign = true) (p : Program σ α)
    (m : Machine σ) :
    Accounts fails m (bodyHistory answer asked b fails p m) (p.run answer m) := by
  constructor
  · intro a m' ended bad candid
    rw [bodyHistory, around, ended, andThen_ok, bad] at candid
    have last := (candid_append.1 (candid_cons.1 candid).2).2
    have left : (!b.isForeign || m'.context.pending.isSome) = true := (candid_cons.1 last).1
    rwa [foreign] at left
  · intro a m' ended good quiet
    rw [bodyHistory, around] at quiet
    have builtin : (!b.isForeign) = true := (quiet_cons.1 quiet).1
    rw [foreign] at builtin
    cases builtin

variable (answers : ∀ r m, r.Builtin → Accounts r.isFailure m (asked r m) (answer r m))

include answers

theorem accounts_program {p : Program σ α} (propagates : p.Propagates fails) (m : Machine σ) :
    Accounts fails m (p.history answer asked m) (p.run answer m) := by
  induction propagates generalizing m with
  | done good => exact accounts_pure good m
  | look _ ih => exact ih m.context m.state m
  | @ask r next builtin _ ends ih =>
    refine accounts_bind (answers r m builtin) (fun x m₁ good => ih x good m₁) fun x failed => ?_
    obtain ⟨a, last, bad⟩ := ends x failed
    exact ⟨a, congrArg (Program.run answer) last, bad⟩

theorem accounts_method (F : Foreign σ) {s : Shape} (h : Handler) (op : Op s) (m : Machine σ) :
    Accounts s.isFailure m (bodyHistory answer asked (.method h op) s.isFailure (F.method h op) m)
      ((F.method h op).run answer m) := by
  cases trapped : h.trapped? op.slot with
  | some id =>
    refine accounts_foreign ?_ _ m
    simp [Body.isForeign, trapped]
  | none =>
    refine accounts_around ?_
    rw [F.method_of_empty trapped]
    exact accounts_program answers (BaseHandler.propagates_method h.base op) m

theorem accounts_atDepth {s : Shape} {b : Body} {p : Program σ s.Answer}
    (body : ∀ m, Accounts s.isFailure m (bodyHistory answer asked b s.isFailure p m)
      (p.run answer m)) (m : Machine σ) :
    Accounts s.isFailure m (depthHistory answer asked s b p m)
      (atDepth answer s (p.run answer) m) := by
  unfold depthHistory
  by_cases room : m.context.depth < m.context.maxDepth
  · rw [if_pos room, atDepth_of_room room]
    exact accounts_nested (body (m.deeper 1))
  · rw [if_neg room, atDepth_of_full room]
    exact accounts_program answers (Program.propagates_giveUp ..) m

theorem accounts_dispatch (F : Foreign σ) {s : Shape} (op : Op s) (m : Machine σ) :
    Accounts s.isFailure m (dispatchHistory F answer asked op m) (dispatch F answer op m) := by
  unfold dispatchHistory dispatch
  rw [Run.bind_context]
  cases m.context.get? op.subject with
  | none => exact accounts_program answers (Program.propagates_giveUp ..) m
  | some x =>
    dsimp only
    cases x.proxy? with
    | none => exact accounts_program answers (Ordinary.propagates_method op) m
    | some p => exact accounts_atDepth answers (accounts_method answers F p.handler op) m

theorem accounts_perform (F : Foreign σ) {s : Shape} (op : Op s) (m : Machine σ) :
    Accounts s.isFailure m (performHistory F answer asked op m) (perform F answer op m) := by
  refine accounts_bind (accounts_program answers (propagates_incapable? op) m)
    (fun early m₁ good => ?_) fun early bad => ?_
  · cases early with
    | some a =>
      have good : s.isFailure a = false := good
      exact accounts_pure good m₁
    | none => exact accounts_dispatch answers F op.normalized m₁
  · cases early with
    | some a => exact ⟨a, rfl, bad⟩
    | none => cases bad

theorem accounts_step (F : Foreign σ) {r : Request} (builtin : r.Builtin) (m : Machine σ) :
    Accounts r.isFailure m (stepHistory F answer asked r m) (step F answer r m) := by
  cases r with
  | act a =>
    constructor
    · intro x m' ended bad _
      obtain ⟨c, ran, rfl⟩ := Run.update_eq_ok.1 ended
      cases a with
      | report kind message => exact Update.report_pending ran
      | _ => cases bad
    · intro x m' ended good _
      obtain ⟨c, ran, rfl⟩ := Run.update_eq_ok.1 ended
      refine Action.Builtin.keepsPending builtin (fun y => ?_) ran
      cases a with
      | report kind message => cases good
      | _ => rfl
  | perform op => exact accounts_perform answers F op m
  | runFunction code this args =>
    exact accounts_atDepth answers (s := .value) (fun m => accounts_foreign rfl _ m) m
  | enumerateFrom o visited seen listed =>
    exact accounts_program answers (Ordinary.propagates_enumerateFrom o visited seen listed) m
  | _ => cases builtin

end

theorem accounts_answer (F : Foreign σ) (fuel : Nat) {r : Request} (builtin : r.Builtin)
    (m : Machine σ) : Accounts r.isFailure m (history F fuel r m) (Engine.answer F fuel r m) := by
  induction fuel generalizing r m with
  | zero => exact accounts_stopped _
  | succ fuel ih =>
    exact accounts_around (accounts_step (fun r m builtin => ih builtin m) F builtin m)

end Engine

namespace Program

/-- What a host can issue that may fail: every operation by its shape, and the operations
by name and in strict form. -/
inductive Offered : {α : Type} → (α → Bool) → Program σ α → Prop
  | perform {s : Shape} (op : Op s) : Offered s.isFailure (perform op)
  | enumerateThroughPrototypes (o : ObjectId) (listed : List PropertyKey) :
      Offered Listing.failed (enumerateThroughPrototypes o listed)
  | readThrough (d : Descriptor) (receiver : Value) :
      Offered Fallible.isFailure (Ordinary.readThrough d receiver).run
  | setWithOwn (o : ObjectId) (k : PropertyKey) (v receiver : Value) (own : Option Descriptor) :
      Offered Fallible.isFailure (Ordinary.setWithOwn o k v receiver own).run
  | getProperty (o : ObjectId) (name : String) :
      Offered Fallible.isFailure (Attempt.getProperty o name).run
  | setProperty (o : ObjectId) (name : String) (v : Value) :
      Offered Fallible.isFailure (Attempt.setProperty o name v).run
  | defineData (o : ObjectId) (name : String) (v : Value) (attrs : Attributes) :
      Offered Fallible.isFailure (Attempt.defineData o name v attrs).run
  | checkStrict (outcome : Outcome) (k : PropertyKey) :
      Offered Fallible.isFailure (Attempt.checkStrict outcome k).run
  | checkStrictObject (outcome : Outcome) :
      Offered Fallible.isFailure (Attempt.checkStrictObject outcome).run

theorem Offered.propagates {α : Type} {fails : α → Bool} {p : Program σ α}
    (offered : p.Offered fails) : p.Propagates fails := by
  cases offered with
  | perform op => exact propagates_perform op
  | enumerateThroughPrototypes o listed =>
    exact propagates_request (r := .enumerateFrom o [] [] listed) trivial
  | readThrough d receiver => exact Ordinary.propagates_readThrough d receiver
  | setWithOwn o k v receiver own => exact Ordinary.propagates_setWithOwn o k v receiver own
  | getProperty o name => exact Attempt.propagates_getProperty o name
  | setProperty o name v => exact Attempt.propagates_setProperty o name v
  | defineData o name v attrs => exact Attempt.propagates_defineData o name v attrs
  | checkStrict outcome k => exact Attempt.propagates_checkStrict outcome k
  | checkStrictObject outcome => exact Attempt.propagates_checkStrictObject outcome

end Program

namespace Engine

theorem run_escape (F : Foreign σ) (fuel : Nat) {m : Machine σ} {v : Value}
    (pending : m.context.pending = some v) :
    run F (fuel + 1) Program.escape m =
      .ok (.exception v (m.context.describeException v),
        { m with context := { m.context with pending := none } }) := by
  obtain ⟨⟨⟩, s⟩ := m
  cases pending
  rfl

theorem issue_fallback (F : Foreign σ) (fuel : Nat) {s : Shape} (op : Op s)
    (never : s.canFail = false) {m : Machine σ} {h : Handler}
    (handler : m.context.handler? op.subject = some h)
    (full : m.context.maxDepth ≤ m.context.depth) :
    issue F (fuel + 1) op m = .ok (s.givenUp, m) :=
  issue_of_giveUp never (dispatch_full handler (Nat.not_lt.2 full))

/-- Whatever is offered: when it fails, and every trap and host function that failed on the
way has left an exception pending, there is one to escape with; when it succeeds and no
trap or host function ran, the pending exception is as it was. A query that cannot fail
leaves the whole context alone at the depth limit. -/
theorem failure_channels_agree (F : Foreign σ) (fuel : Nat) (m : Machine σ) :
    (∀ {α : Type} {fails : α → Bool} {p : Program σ α}, p.Offered fails →
      ∀ a m', run F fuel p m = .ok (a, m') →
        (fails a = true → (runHistory F fuel p m).Candid →
          ∃ v text, m'.context.pending = some v ∧ ∀ more, run F (more + 1) Program.escape m' =
            .ok (.exception v text, { m' with context := { m'.context with pending := none } })) ∧
        (fails a = false → (runHistory F fuel p m).Quiet →
          m'.context.pending = m.context.pending)) ∧
    ∀ {s : Shape} (op : Op s), s.canFail = false → (m.context.isProxy op.subject) = true →
      m.context.maxDepth ≤ m.context.depth →
      issue F (fuel + 1) op m = .ok (s.givenUp, m) := by
  refine ⟨fun {α fails p} offered a m' ended => ?_, fun op never proxy full => ?_⟩
  · have accounts := accounts_program (fun _ m builtin => accounts_answer F fuel builtin m)
      offered.propagates m
    refine ⟨fun bad candid => ?_, accounts.success ended⟩
    obtain ⟨v, pending⟩ := Option.isSome_iff_exists.1 (accounts.failure ended bad candid)
    exact ⟨v, _, pending, fun more => run_escape F more pending⟩
  · rw [Context.isProxy_eq] at proxy
    obtain ⟨h, handler⟩ := Option.isSome_iff_exists.1 proxy
    exact issue_fallback F fuel op never handler full

def grumble : Foreign Unit :=
  { Foreign.idle with
    trap := fun _ _ out => do
      Program.report .typeError "no"
      return ⟨false, out⟩ }

def guarded : ObjectId × Context :=
  (Update.newProxy (.traps ⟨⟨0⟩, [.get]⟩ 0 .plain) .undefined none {}
    (Context.create {})).getD default

theorem grumble_escapes : ∃ m' v text m'',
    run grumble 2 (Program.perform (.get guarded.1 .undefined .void)) ⟨guarded.2, ()⟩ =
      .ok (.error {}, m') ∧
    run grumble 1 Program.escape m' = .ok (.exception v text, m'') := by
  have candid : (runHistory grumble 2 (Program.perform (.get guarded.1 .undefined .void))
      ⟨guarded.2, ()⟩).Candid := List.all_eq_true.1 rfl
  obtain ⟨v, text, -, escapes⟩ := ((failure_channels_agree grumble 2 ⟨guarded.2, ()⟩).1
    (.perform (.get guarded.1 .undefined .void)) _ _ rfl).1 rfl candid
  exact ⟨_, v, text, _, rfl, escapes 0⟩

end Engine

end ProxyEngine
