import ProxyEngine.Proofs.Behaviour.Attention
import ProxyEngine.Proofs.Engine.Barred

/-! Two runs on contexts that are alike in a region. A request that names handles of the
region, and that runs no trap and no host function, is answered in the same way by both:
they succeed with one answer and leave contexts that are alike again, or they fail and
report the same error, as a new object. Neither touches an object outside of the region. -/

namespace ProxyEngine

variable {σ α β : Type} {S : ObjectId → Prop}

namespace Run

variable {γ : Type} {R : α × Machine σ → β × Machine σ → Prop}

/-- The runs end in related ways, or both are out of fuel. Nothing is said when the first one
finds the heap full. -/
inductive Paired (R : α × Machine σ → β × Machine σ → Prop) :
    Except Stop (α × Machine σ) → Except Stop (β × Machine σ) → Prop
  | full {ran' : Except Stop (β × Machine σ)} : Paired R (.error .heapFull) ran'
  | starved : Paired R (.error .outOfFuel) (.error .outOfFuel)
  | ended {p : α × Machine σ} {p' : β × Machine σ} : R p p' → Paired R (.ok p) (.ok p')

theorem Paired.bind {m m' : Machine σ} {x : Run σ α} {x' : Run σ β} {α' β' : Type}
    {f : α → Run σ α'} {f' : β → Run σ β'} {R' : α' × Machine σ → β' × Machine σ → Prop}
    (first : Paired R (x m) (x' m'))
    (rest : ∀ a m₁ b m₁', x m = .ok (a, m₁) → R (a, m₁) (b, m₁') →
      Paired R' (f a m₁) (f' b m₁')) : Paired R' ((x >>= f) m) ((x' >>= f') m') := by
  generalize ran : x m = first₁ at first
  generalize ran' : x' m' = first₂ at first
  cases first with
  | full =>
    rw [bind_of_error ran]
    exact .full
  | starved =>
    rw [bind_of_error ran, bind_of_error ran']
    exact .starved
  | @ended p p' related =>
    rw [bind_of_ok ran, bind_of_ok ran']
    exact rest p.1 p.2 p'.1 p'.2 ran related

theorem Paired.of_ok {ran : Except Stop (α × Machine σ)} {ran' : Except Stop (β × Machine σ)}
    {p : α × Machine σ} (paired : Paired R ran ran') (ends : ran = .ok p) :
    ∃ p', ran' = .ok p' ∧ R p p' := by
  cases paired with
  | full => cases ends
  | starved => cases ends
  | ended related =>
    cases ends
    exact ⟨_, rfl, related⟩

theorem Paired.of_starved {ran : Except Stop (α × Machine σ)}
    {ran' : Except Stop (β × Machine σ)} (paired : Paired R ran ran')
    (starves : ran = .error .outOfFuel) : ran' = .error .outOfFuel := by
  cases paired with
  | full => cases starves
  | starved => rfl
  | ended => cases starves

theorem Paired.imp {R' : α × Machine σ → β × Machine σ → Prop}
    {ran : Except Stop (α × Machine σ)} {ran' : Except Stop (β × Machine σ)}
    (paired : Paired R ran ran') (implies : ∀ p p', R p p' → R' p p') : Paired R' ran ran' := by
  cases paired with
  | full => exact .full
  | starved => exact .starved
  | ended related => exact .ended (implies _ _ related)

theorem Paired.nested {m m' : Machine σ} {x : Run σ α} {x' : Run σ β} {n : Nat}
    {R' : α × Machine σ → β × Machine σ → Prop}
    (paired : Paired R (x (m.deeper n)) (x' (m'.deeper n)))
    (back : ∀ a m₁ b m₁', R (a, m₁) (b, m₁') → R' (a, m₁.shallower n) (b, m₁'.shallower n)) :
    Paired R' (x.nested n m) (x'.nested n m') := by
  generalize ran : x (m.deeper n) = inner at paired
  generalize ran' : x' (m'.deeper n) = inner' at paired
  cases paired with
  | full =>
    rw [nested_of_error ran]
    exact .full
  | starved =>
    rw [nested_of_error ran, nested_of_error ran']
    exact .starved
  | @ended p p' related =>
    rw [nested_of_ok ran, nested_of_ok ran']
    exact .ended (back _ _ _ _ related)

end Run

open Run

namespace Context

variable {c₀ c c' : Context}

theorem Alike.leveled (alike : c.Alike S c') (f : Nat → Nat) :
    Alike S { c with depth := f c.depth } { c' with depth := f c'.depth } :=
  { alike with rest := by rw [alike.rest] }

theorem Resemble.leveled (resemble : Resemble S c₀ c c') (f : Nat → Nat) :
    Resemble S c₀ { c with depth := f c.depth } { c' with depth := f c'.depth } :=
  { resemble with rest := by rw [resemble.rest] }

/-- What an observer can tell of two contexts: certain objects, everything outside of the
heap, and which error is pending if one was reported last. -/
structure Indistinct (known : ObjectId → Prop) (failed : Bool) (c c' : Context) : Prop where
  objects : ∀ o, known o → c'.get? o = c.get? o
  rest : c' = { c with heap := c'.heap, stats := c'.stats, pending := c'.pending }
  success : failed = false → c'.pending = c.pending
  failure : failed = true → ∃ kind message, c.Reports kind message ∧ c'.Reports kind message

end Context

structure Machine.Spares (S : ObjectId → Prop) (m m₁ : Machine σ) : Prop where
  context : m.context.Spares S m₁.context
  state : m₁.state = m.state

theorem Machine.Spares.refl (S : ObjectId → Prop) (m : Machine σ) : m.Spares S m :=
  ⟨.refl S _, rfl⟩

theorem Machine.Spares.trans {m m₁ m₂ : Machine σ} (first : m.Spares S m₁)
    (second : m₁.Spares S m₂) : m.Spares S m₂ :=
  ⟨first.context.trans second.context, second.state.trans first.state⟩

structure GaveUp (S : ObjectId → Prop) (c₀ : Context) (m m' m₁ m₁' : Machine σ) : Prop where
  resemble : Context.Resemble S c₀ m₁.context m₁'.context
  spares : m.Spares S m₁
  spares' : m'.Spares S m₁'
  reports : ∃ kind message,
    m₁.context.Reports kind message ∧ m₁'.context.Reports kind message

theorem GaveUp.after {c₀ c₁ : Context} {m m' m₁ m₁' m₂ m₂' : Machine σ}
    (gave : GaveUp S c₁ m₁ m₁' m₂ m₂') (first : m.Spares S m₁) (first' : m'.Spares S m₁')
    (live : ∀ o, c₀.isLive o → c₁.isLive o) : GaveUp S c₀ m m' m₂ m₂' :=
  ⟨gave.resemble.since live, first.trans gave.spares, first'.trans gave.spares', gave.reports⟩

/-- Two runs, from `m` and from `m'`, have ended in the same way: they have succeeded and
left alike contexts, or they have failed and reported the same error. -/
inductive Agrees (S : ObjectId → Prop) (fails : α → Bool) (Q : α → Prop) (m m' : Machine σ) :
    α × Machine σ → α × Machine σ → Prop
  | succeeded {a : α} {m₁ m₁' : Machine σ} : fails a = false → Q a →
      m₁.context.Alike S m₁'.context → m.Spares S m₁ → m'.Spares S m₁' →
      Agrees S fails Q m m' (a, m₁) (a, m₁')
  | failed {a : α} {m₁ m₁' : Machine σ} : fails a = true → GaveUp S m.context m m' m₁ m₁' →
      Agrees S fails Q m m' (a, m₁) (a, m₁')

theorem Agrees.indistinct {fails : α → Bool} {Q : α → Prop} {m m' : Machine σ}
    {p p' : α × Machine σ} (agrees : Agrees S fails Q m m' p p') {known : ObjectId → Prop}
    (same : ∀ o, known o → m.context.isLive o ∧ m'.context.get? o = m.context.get? o) :
    p'.1 = p.1 ∧ p.2.context.Indistinct known (fails p.1) p'.2.context ∧
      m.Spares S p.2 ∧ m'.Spares S p'.2 := by
  have outside {m₁ m₁' : Machine σ} (spares : m.Spares S m₁) (spares' : m'.Spares S m₁')
      (o : ObjectId) (here : known o) (out : ¬ S o) :
      m₁'.context.get? o = m₁.context.get? o := by
    obtain ⟨live, equal⟩ := same o here
    have live' : m'.context.isLive o := (congrArg Option.isSome equal).trans live
    exact ((spares'.context.outside o live' out).trans equal).trans
      (spares.context.outside o live out).symm
  cases agrees with
  | succeeded good _ alike spares spares' =>
    refine ⟨rfl, ⟨fun o here => ?_, ?_, fun _ => ?_, fun bad => (nomatch good.symm.trans bad)⟩,
      spares, spares'⟩
    · by_cases inside : S o
      · exact alike.objects o inside
      · exact outside spares spares' o here inside
    · rw [alike.rest]
    · rw [alike.rest]
  | failed bad gave =>
    refine ⟨rfl, ⟨fun o here => ?_, gave.resemble.rest, fun good => (nomatch good.symm.trans bad),
      fun _ => gave.reports⟩, gave.spares, gave.spares'⟩
    by_cases inside : S o
    · exact (gave.resemble.objects o inside (same o here).1).2
    · exact outside gave.spares gave.spares' o here inside

abbrev Twins (S : ObjectId → Prop) (fails : α → Bool) (Q : α → Prop) (m m' : Machine σ) :
    Except Stop (α × Machine σ) → Except Stop (α × Machine σ) → Prop :=
  Paired (Agrees S fails Q m m')

namespace Action

variable {c c' : Context} {a : Action}

theorem Within.tracks (within : a.Within S) (silent : ∀ x, (Request.act a).isFailure x = false)
    (alike : c.Alike S c') : Update.Tracks S c c' a.update := by
  have sees {o : ObjectId} (inside : S o) : Update.Sees o c c' := alike.objects o inside
  cases a with
  | newString text => exact (Update.tracks_intern alike text).map _
  | key name => exact Update.tracks_key alike name
  | defineStored o k d =>
    exact (Update.rewrites_defineStored o k d).tracks alike within.1 rfl (sees within.1) within.2
  | deleteStored o k =>
    exact (Update.rewrites_deleteStored o k).tracks alike within rfl (sees within) nofun
  | storePrototype o proto =>
    refine (Update.rewrites_storePrototype o proto).tracks alike within.1 ⟨rfl, rfl⟩
      ⟨sees within.1, ?_⟩ within.2
    rw [alike.slots]
    exact alike.prototypeWalkMeets o fun t named => within.2 t (Option.mem_toList.2 named)
  | storeExtensible o extensible =>
    exact (Update.rewrites_modifyObject (f := fun x => { x with extensible })
      fun _ _ here => here).tracks alike within rfl (sees within) nofun
  | fixPrototype o =>
    exact (Update.rewrites_modifyObject (f := fun x => { x with immutablePrototype := true })
      fun _ _ here => here).tracks alike within rfl (sees within) nofun
  | report kind message => cases silent ()
  | _ => cases within

theorem fits {x : a.Response} {c₁ : Context} (ran : a.update c = some (x, c₁)) :
    (Request.act a).Fits S x := by
  cases a with
  | newString text =>
    cases ran
    intro t here
    rw [Value.handles, Value.asObject?_string] at here
    cases here
  | _ => trivial

end Action

namespace Engine

open History

variable {F : Foreign σ} {fails : α → Bool} {fails' : β → Bool} {Q : α → Prop} {R : β → Prop}
  {m m' : Machine σ}

theorem quiet_around {first : Event} {last : α → Event} {x : Run σ α}
    {inner : Machine σ → History} (quiet : (around first last x inner m).Quiet) :
    (inner m).Quiet :=
  (quiet_append.1 (quiet_cons.1 quiet).2).1

theorem quiet_andThen {t : History} {ran : Except Stop (α × Machine σ)}
    {rest : α → Machine σ → History} (quiet : (t.andThen ran rest).Quiet) :
    t.Quiet ∧ ∀ a m₁, ran = .ok (a, m₁) → (rest a m₁).Quiet := by
  obtain ⟨first, later⟩ := quiet_append.1 quiet
  refine ⟨first, ?_⟩
  rintro a m₁ rfl
  exact later

theorem not_quiet_foreign {answer : Answerer σ} {asked : Request → Machine σ → History} {b : Body}
    (foreign : b.isForeign = true) (p : Program σ α) :
    ¬ (bodyHistory answer asked b fails p m).Quiet := by
  intro quiet
  have builtin : (!b.isForeign) = true := (quiet_cons.1 quiet).1
  rw [foreign] at builtin
  cases builtin

/-! The ends of runs. -/

theorem twins_pure {a : α} (good : fails a = false) (fits : Q a)
    (alike : m.context.Alike S m'.context) :
    Twins S fails Q m m' ((pure a : Run σ α) m) ((pure a : Run σ α) m') :=
  .ended (.succeeded good fits alike (.refl S m) (.refl S m'))

theorem twins_bind {x : Run σ α} {f : α → Run σ β} (first : Twins S fails Q m m' (x m) (x m'))
    (goes : ∀ a m₁ m₁', fails a = false → Q a → x m = .ok (a, m₁) →
      m₁.context.Alike S m₁'.context → Twins S fails' R m₁ m₁' (f a m₁) (f a m₁'))
    (ends : ∀ a, fails a = true → ∃ b, f a = pure b ∧ fails' b = true) :
    Twins S fails' R m m' ((x >>= f) m) ((x >>= f) m') := by
  refine first.bind fun a m₁ a' m₁' ran agrees => ?_
  cases agrees with
  | succeeded good fits alike spares spares' =>
    refine (goes a m₁ m₁' good fits ran alike).imp fun p p' later => ?_
    cases later with
    | succeeded good fits alike more more' =>
      exact .succeeded good fits alike (spares.trans more) (spares'.trans more')
    | failed bad gave => exact .failed bad (gave.after spares spares' spares.context.live)
  | failed bad gave =>
    obtain ⟨b, last, bad'⟩ := ends a bad
    rw [last]
    exact .ended (.failed bad' gave)

theorem twins_nested {x : Run σ α}
    (twins : Twins S fails Q (m.deeper 1) (m'.deeper 1) (x (m.deeper 1)) (x (m'.deeper 1))) :
    Twins S fails Q m m' (x.nested 1 m) (x.nested 1 m') := by
  refine twins.nested fun a m₁ b m₁' agrees => ?_
  cases agrees with
  | succeeded good fits alike spares spares' =>
    exact .succeeded good fits (alike.leveled (· - 1)) ⟨⟨spares.context.1, spares.context.2⟩,
      spares.state⟩ ⟨⟨spares'.context.1, spares'.context.2⟩, spares'.state⟩
  | failed bad gave =>
    obtain ⟨resemble, spares, spares', reports⟩ := gave
    exact .failed bad ⟨(resemble.leveled (· - 1)).since fun _ => id,
      ⟨⟨spares.context.1, spares.context.2⟩, spares.state⟩,
      ⟨⟨spares'.context.1, spares'.context.2⟩, spares'.state⟩, reports⟩

/-! Reports, which both runs may make with different objects behind them. -/

section

variable {c₀ : Context} (resemble : Context.Resemble S c₀ m.context m'.context)

include resemble

theorem paired_report (kind : ErrorKind) (message : String) (fuel : Nat) :
    Paired (fun p p' => GaveUp S c₀ m m' p.2 p'.2)
      (Engine.answer F fuel (.act (.report kind message)) m)
      (Engine.answer F fuel (.act (.report kind message)) m') := by
  cases fuel with
  | zero => exact .starved
  | succ fuel =>
    show Paired _ (Run.update (Update.report kind message) m)
      (Run.update (Update.report kind message) m')
    cases ran : Update.report kind message m.context with
    | none =>
      rw [Run.update, ran]
      exact .full
    | some result =>
      obtain ⟨a, c₁⟩ := result
      obtain ⟨c₁', ran', after⟩ := Update.report_resembles resemble ran
      rw [Run.update_of_some ran, Run.update_of_some ran']
      exact .ended ⟨after, ⟨(Update.reported resemble.valid ran).spares resemble.valid, rfl⟩,
        ⟨(Update.reported resemble.valid' ran').spares resemble.valid', rfl⟩, kind, message,
        Update.errorInfo?_of_report resemble.valid ran,
        Update.errorInfo?_of_report resemble.valid' ran'⟩

theorem paired_giveUp {s : Shape} (can : s.canFail = true) (kind : ErrorKind) (message : String)
    (fuel : Nat) :
    Paired (fun p p' => p.1 = s.givenUp ∧ p'.1 = s.givenUp ∧ GaveUp S c₀ m m' p.2 p'.2)
      ((Program.giveUp s kind message).run (Engine.answer F fuel) m)
      ((Program.giveUp s kind message).run (Engine.answer F fuel) m') := by
  unfold Program.giveUp
  rw [if_pos can]
  exact (paired_report resemble kind message fuel).bind fun _ _ _ _ _ gave =>
    .ended ⟨rfl, rfl, gave⟩

theorem paired_runFunction {code code' : FunctionId} {this this' : Value}
    {args args' : List Value} {fuel : Nat}
    (quiet : (history F fuel (.runFunction code this args) m).Quiet) :
    Paired (fun p p' => p.1 = Except.error {} ∧ p'.1 = Except.error {} ∧
        GaveUp S c₀ m m' p.2 p'.2)
      (Engine.answer F fuel (.runFunction code this args) m)
      (Engine.answer F fuel (.runFunction code' this' args') m') := by
  cases fuel with
  | zero => exact .starved
  | succ fuel =>
    replace quiet : (depthHistory (Engine.answer F fuel) (history F fuel) .value
      (.function code this args) (F.function code this args) m).Quiet := quiet_around quiet
    have level : m'.context.depth = m.context.depth := by rw [resemble.rest]
    have limit : m'.context.maxDepth = m.context.maxDepth := by rw [resemble.rest]; rfl
    by_cases room : m.context.depth < m.context.maxDepth
    · unfold depthHistory at quiet
      rw [if_pos room] at quiet
      exact (not_quiet_foreign rfl _ (quiet_below.1 quiet)).elim
    · have full' : ¬ m'.context.depth < m'.context.maxDepth := by rwa [level, limit]
      show Paired _ (atDepth _ .value _ m) (atDepth _ .value _ m')
      rw [atDepth_of_full room, atDepth_of_full full']
      exact paired_giveUp (s := .value) resemble rfl _ _ fuel

end

/-- A construct that runs no constructor ends in one way: the new object is lost. -/
theorem twins_construct {proto : Option ObjectId} {next : ObjectId → Program σ α} {a : α}
    (bad : fails a = true)
    (runs : ∀ e, ∃ code this args, ∃ last : Fallible Value → Program σ α,
      next e = .ask (.runFunction code this args) last ∧
        ∀ x, x.isFailure = true → last x = .done a)
    (alike : m.context.Alike S m'.context) {fuel : Nat}
    (quiet : (runHistory F fuel (.ask (.act (.newObject proto)) next) m).Quiet) :
    Twins S fails Q m m' (run F fuel (.ask (.act (.newObject proto)) next) m)
      (run F fuel (.ask (.act (.newObject proto)) next) m') := by
  have made : Paired (fun p p' => Context.Resemble S m.context p.2.context p'.2.context ∧
      m.Spares S p.2 ∧ m'.Spares S p'.2) (Engine.answer F fuel (.act (.newObject proto)) m)
        (Engine.answer F fuel (.act (.newObject proto)) m') := by
    cases fuel with
    | zero => exact .starved
    | succ fuel =>
      show Paired _ (Run.update (Update.newObject proto) m) (Run.update (Update.newObject proto) m')
      cases ran : Update.newObject proto m.context with
      | none =>
        rw [Run.update, ran]
        exact .full
      | some result =>
        obtain ⟨e, c₁⟩ := result
        obtain ⟨e', c₁', ran', after, spares, spares'⟩ :=
          Update.newObject_resembles alike.resemble ran
        rw [Run.update_of_some ran, Run.update_of_some ran']
        exact .ended ⟨after, ⟨spares, rfl⟩, ⟨spares', rfl⟩⟩
  refine made.bind fun e m₁ e' m₁' ran after => ?_
  obtain ⟨resemble, spares, spares'⟩ := after
  have quiet' : (runHistory F fuel (next e) m₁).Quiet := (quiet_andThen quiet).2 e m₁ ran
  obtain ⟨code, this, args, last, body, fixed⟩ := runs e
  obtain ⟨code', this', args', last', body', fixed'⟩ := runs e'
  rw [body] at quiet'
  show Paired _ (run F fuel (next e) m₁) (run F fuel (next e') m₁')
  rw [body, body']
  refine (paired_runFunction resemble (quiet_andThen quiet').1).bind ?_
  rintro _ m₂ _ m₂' - ⟨rfl, rfl, gave⟩
  show Paired _ (run F fuel (last (.error {})) m₂) (run F fuel (last' (.error {})) m₂')
  rw [fixed _ rfl, fixed' _ rfl]
  exact .ended (.failed bad (gave.after spares spares' fun _ => id))

section

variable {fuel : Nat} {s : Shape} {op : Op s}
  (answers : ∀ {r : Request} {m m' : Machine σ}, r.Within S → m.context.Alike S m'.context →
    (history F fuel r m).Quiet →
    Twins S r.isFailure (r.Fits S) m m' (Engine.answer F fuel r m) (Engine.answer F fuel r m'))

include answers

theorem twins_run {p : Program σ α} (attends : p.Attends S fails Q)
    (alike : m.context.Alike S m'.context)
    (quiet : (runHistory F fuel p m).Quiet) :
    Twins S fails Q m m' (run F fuel p m) (run F fuel p m') := by
  induction attends generalizing m m' with
  | done good fits => exact twins_pure good fits alike
  | @look next same _ ih =>
    have next_eq := same m.context m'.context m.state m'.state alike
    show Twins S fails Q m m' (run F fuel (next m.context m.state) m)
      (run F fuel (next m'.context m'.state) m')
    rw [next_eq]
    exact ih m.context m.state alike.closed alike quiet
  | ask within _ ends ih =>
    obtain ⟨first, later⟩ := quiet_andThen quiet
    refine twins_bind (answers within alike first)
      (fun x m₁ m₁' good fits ran alike => ih x good fits alike (later x m₁ ran)) fun x failed => ?_
    obtain ⟨a, last, bad⟩ := ends x failed
    exact ⟨a, congrArg (Program.run _) last, bad⟩
  | construct bad runs => exact twins_construct bad runs alike quiet

theorem twins_method (within : op.Within S) (h : Handler)
    (alike : m.context.Alike S m'.context)
    (quiet : (bodyHistory (Engine.answer F fuel) (history F fuel) (.method h op) s.isFailure
      (F.method h op) m).Quiet) :
    Twins S s.isFailure (fun a => ∀ t ∈ s.handles a, S t) m m' (run F fuel (F.method h op) m)
      (run F fuel (F.method h op) m') := by
  cases trapped : h.trapped? op.slot with
  | some id => exact (not_quiet_foreign (by simp [Body.isForeign, trapped]) _ quiet).elim
  | none =>
    replace quiet := quiet_around quiet
    rw [F.method_of_empty trapped] at quiet ⊢
    exact twins_run answers (BaseHandler.attends_method h.base within) alike quiet

theorem twins_dispatch (within : op.Within S) (alike : m.context.Alike S m'.context)
    (quiet : (dispatchHistory F (Engine.answer F fuel) (history F fuel) op m).Quiet) :
    Twins S s.isFailure (fun a => ∀ t ∈ s.handles a, S t) m m'
      (dispatch F (Engine.answer F fuel) op m) (dispatch F (Engine.answer F fuel) op m') := by
  have same := alike.objects op.subject within.subject
  unfold dispatchHistory at quiet
  unfold dispatch
  rw [Run.bind_context, Run.bind_context, same]
  cases found : m.context.get? op.subject with
  | none =>
    rw [found] at quiet
    exact twins_run answers (Program.attends_giveUp s _ _) alike quiet
  | some x =>
    rw [found] at quiet
    dsimp only at quiet ⊢
    cases proxy : x.proxy? with
    | none =>
      rw [proxy] at quiet
      exact twins_run answers (Ordinary.attends_method within) alike quiet
    | some p =>
      rw [proxy] at quiet
      dsimp only at quiet ⊢
      have level : m'.context.depth = m.context.depth := by rw [alike.rest]
      have limit : m'.context.maxDepth = m.context.maxDepth := by rw [alike.rest]; rfl
      unfold depthHistory at quiet
      by_cases room : m.context.depth < m.context.maxDepth
      · have room' : m'.context.depth < m'.context.maxDepth := by rwa [level, limit]
        rw [if_pos room] at quiet
        rw [atDepth_of_room room, atDepth_of_room room']
        exact twins_nested (twins_method answers within p.handler (alike.leveled (· + 1))
          (quiet_below.1 quiet))
      · have full' : ¬ m'.context.depth < m'.context.maxDepth := by rwa [level, limit]
        rw [if_neg room] at quiet
        rw [atDepth_of_full room, atDepth_of_full full']
        exact twins_run answers (Program.attends_giveUp s _ _) alike quiet

omit answers in
theorem attends_incapable? (within : op.Within S) :
    (incapable? op : Program σ _).Attends S (fun early => early.any s.isFailure)
      fun early => early = none := by
  cases asked : op.query? with
  | none =>
    rw [incapable?_unasked asked]
    exact .done rfl rfl
  | some q =>
    have inside : q.Within S := by
      refine Op.within_iff.2 ⟨Op.subject_of_query asked ▸ within.subject, ?_⟩
      cases op <;> cases asked <;> exact nofun
    have can := Op.canFail_of_query asked
    rw [incapable?_asked asked]
    refine .ask inside (fun able _ _ => ?_) nofun
    split
    · exact .done rfl rfl
    · refine .look (fun c c' _ _ alike => ?_) fun c _ _ => ?_
      · rw [Context.valueText_object, Context.valueText_object, Context.storedClassName,
          Context.storedClassName, alike.objects op.subject within.subject]
      · unfold Program.giveUp
        rw [if_pos can]
        exact .ask trivial nofun fun _ _ => ⟨some s.givenUp, rfl, s.isFailure_givenUp.trans can⟩

theorem twins_perform (within : op.Within S) (alike : m.context.Alike S m'.context)
    (quiet : (performHistory F (Engine.answer F fuel) (history F fuel) op m).Quiet) :
    Twins S s.isFailure (fun a => ∀ t ∈ s.handles a, S t) m m'
      (perform F (Engine.answer F fuel) op m) (perform F (Engine.answer F fuel) op m') := by
  obtain ⟨first, later⟩ := quiet_andThen quiet
  refine twins_bind (twins_run answers (attends_incapable? within) alike first)
    (fun early m₁ m₁' _ none ran alike => ?_) fun early bad => ?_
  · subst none
    exact twins_dispatch answers within.normalized alike (later none m₁ ran)
  · cases early with
    | some a => exact ⟨a, rfl, bad⟩
    | none => cases bad

end

theorem twins_act {a : Action} (within : a.Within S) (alike : m.context.Alike S m'.context)
    (fuel : Nat) :
    Twins S (Request.act a).isFailure ((Request.act a).Fits S) m m'
      (Engine.answer F fuel (.act a) m) (Engine.answer F fuel (.act a) m') := by
  by_cases reports : ∃ kind message, a = .report kind message
  · obtain ⟨kind, message, rfl⟩ := reports
    exact (paired_report alike.resemble kind message fuel).imp fun _ _ => .failed (a := ()) rfl
  · have silent : ∀ x, (Request.act a).isFailure x = false := by
      intro x
      cases a with
      | report kind message => exact (reports ⟨kind, message, rfl⟩).elim
      | _ => rfl
    cases fuel with
    | zero => exact .starved
    | succ fuel =>
      obtain ⟨x, c₁, c₁', ran, ran', after, spares, spares'⟩ := within.tracks silent alike
      show Twins _ _ _ m m' (Run.update a.update m) (Run.update a.update m')
      rw [Run.update_of_some ran, Run.update_of_some ran']
      exact .ended (.succeeded (silent x) (Action.fits ran) after ⟨spares, rfl⟩ ⟨spares', rfl⟩)

theorem twins_answer (F : Foreign σ) (fuel : Nat) {r : Request} {m m' : Machine σ}
    (within : r.Within S) (alike : m.context.Alike S m'.context)
    (quiet : (history F fuel r m).Quiet) :
    Twins S r.isFailure (r.Fits S) m m' (Engine.answer F fuel r m)
      (Engine.answer F fuel r m') := by
  induction fuel generalizing r m m' with
  | zero => exact .starved
  | succ fuel ih =>
    cases r with
    | act a => exact twins_act within alike (fuel + 1)
    | perform op => exact twins_perform ih within alike (quiet_around quiet)
    | runFunction code this args =>
      refine (paired_runFunction alike.resemble quiet).imp ?_
      rintro ⟨a, m₁⟩ ⟨a', m₁'⟩ ⟨rfl, rfl, gave⟩
      exact .failed rfl gave
    | enumerateFrom o visited seen listed =>
      have attends := Ordinary.attends_enumerateFrom (σ := σ) within visited seen listed
      exact twins_run ih (attends.imp fun _ _ => id) alike (quiet_around quiet)
    | _ => cases within

/-- The same for an operation that comes to an end, with all objects that are known to be the
same before it. -/
theorem issue_indistinct {s : Shape} {op : Op s} (within : op.Within S) (m' : Machine σ)
    (alike : m.context.Alike S m'.context) (known : ObjectId → Prop)
    (same : ∀ o, known o → m.context.isLive o ∧ m'.context.get? o = m.context.get? o)
    {fuel : Nat} (quiet : (history F fuel (.perform op) m).Quiet) {a : s.Answer} {m₁ : Machine σ}
    (ran : issue F fuel op m = .ok (a, m₁)) :
    ∃ m₁', issue F fuel op m' = .ok (a, m₁') ∧
      m₁.context.Indistinct known (s.isFailure a) m₁'.context ∧ m.Spares S m₁ ∧
      m'.Spares S m₁' := by
  obtain ⟨⟨a', m₁'⟩, ran', agrees⟩ :=
    (twins_answer F fuel (r := .perform op) within alike quiet).of_ok ran
  obtain ⟨rfl, rest⟩ := agrees.indistinct same
  exact ⟨m₁', ran', rest⟩

end Engine

end ProxyEngine
