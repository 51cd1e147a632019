import ProxyEngine.Proofs.Behaviour.Commitment
import ProxyEngine.Proofs.Context.Vocabulary
import ProxyEngine.Proofs.Engine.Law

/-! What the engine interns by itself. There is no way to give a text up, so a context that
is used for long must not collect texts from the errors it reports. The built-in methods
intern fixed texts only, apart from one: asked for the source of a function, it interns what
the function's name determines. Whatever is asked of the engine by handles, a bound on its
texts can therefore be read off the context at the start. -/

namespace ProxyEngine

variable {σ α β : Type} {s : Shape}

namespace Request

/-- By itself the request makes no function and interns nothing but texts in `T`. -/
def Interns (T : String → Prop) : Request → Prop
  | act a => a.makesFunction = false ∧ ∀ s ∈ a.texts, T s
  | _ => True

def Frugal : Request → Prop :=
  Interns (· ∈ fixedTexts)

theorem Interns.mono {T T' : String → Prop} {r : Request} (interns : r.Interns T)
    (implies : ∀ s, T s → T' s) : r.Interns T' := by
  cases r with
  | act a => exact ⟨interns.1, fun s here => implies s (interns.2 s here)⟩
  | _ => trivial

theorem frugal_report (kind : ErrorKind) (message : String) :
    Frugal (.act (.report kind message)) :=
  ⟨rfl, by
    show ∀ s ∈ ["name", kind.name], s ∈ fixedTexts
    cases kind <;> decide⟩

theorem Settles.frugal {r : Request} (settles : r.Settles) : r.Frugal := by
  cases r with
  | act a =>
    cases a with
    | report kind message => exact frugal_report kind message
    | storeExtensible o b => exact ⟨rfl, nofun⟩
    | defineStored | deleteStored | storePrototype | fixPrototype => exact ⟨rfl, nofun⟩
    | _ => cases settles
  | _ => trivial

theorem Reads.frugal {r : Request} (reads : r.Reads) : r.Frugal :=
  reads.settles.frugal

end Request

open Attempt Program

/-! The built-in methods. -/

theorem frugal_failWith (kind : ErrorKind) (message : String) :
    Attempt.Only Request.Frugal (failWith kind message : Attempt σ α) :=
  only_failWith Request.frugal_report kind message

theorem frugal_giveUp (s : Shape) (kind : ErrorKind) (message : String) :
    (giveUp s kind message : Program σ s.Answer).Only Request.Frugal :=
  only_giveUp s Request.frugal_report kind message

namespace Ordinary

theorem frugal_readThrough (d : Descriptor) (receiver : Value) :
    (readThrough d receiver : Attempt σ Value).run.Only Request.Frugal :=
  Program.Only.mono (only_readThrough d receiver) fun _ => Request.Reads.frugal

theorem frugal_setWithOwn (o : ObjectId) (k : PropertyKey) (v receiver : Value)
    (own : Option Descriptor) :
    (setWithOwn o k v receiver own : Attempt σ Outcome).run.Only Request.Frugal :=
  (commits_setWithOwn o k v receiver own).only.mono fun _ => Request.Settles.frugal

theorem frugal_enumerateFrom (o : ObjectId) (visited : List ObjectId)
    (seen listed : List PropertyKey) :
    (enumerateFrom o visited seen listed : Program σ Listing).Only Request.Frugal :=
  (only_enumerateFrom o visited seen listed).mono fun _ => Request.Reads.frugal

theorem frugal_prototypeFor (newTarget : Value) :
    Attempt.Only Request.Frugal (prototypeFor newTarget : Attempt σ ObjectId) := by
  unfold prototypeFor
  split
  next t _ =>
    refine Attempt.Only.bind (.ask ⟨rfl, by decide⟩ fun _ => .done _) fun k => ?_
    exact .bind (only_perform (.get t newTarget k) trivial) fun _ => .pure _
  next => exact .pure _

theorem frugal_construct (o : ObjectId) (args : List Value) (newTarget : Value) :
    Attempt.Only Request.Frugal (construct o args newTarget : Attempt σ Value) := by
  refine only_context.bind fun c => ?_
  split
  next code _ _ =>
    refine (frugal_prototypeFor newTarget).bind fun proto => ?_
    refine Attempt.Only.bind (.ask ⟨rfl, nofun⟩ fun _ => .done _) fun this => ?_
    exact .bind (.ask trivial fun _ => .done _) fun _ => .pure _
  next => exact frugal_failWith _ _

theorem frugal_method {op : Op s} (silent : op.slot ≠ .functionToString) :
    (method op : Program σ s.Answer).Only Request.Frugal := by
  by_cases constructs : op.slot = .construct
  · cases op <;> cases constructs
    exact frugal_construct _ _ _
  · exact (commits_method constructs silent).only.mono fun _ => Request.Settles.frugal

end Ordinary

namespace Plain

theorem frugal_functionToString (o : ObjectId) :
    Attempt.Only Request.Frugal (functionToString o : Attempt σ Value) := by
  refine (only_lift (only_perform (.isCallable o) trivial)).bind fun callable => ?_
  split
  · exact only_lift (.ask ⟨rfl, by decide⟩ fun _ => .done _)
  · exact frugal_failWith _ _

theorem frugal_method (op : Op s) : (method op : Program σ s.Answer).Only Request.Frugal := by
  by_cases constructs : op.slot = .construct
  · cases op <;> cases constructs
    exact .done _
  · by_cases quotes : op.slot = .functionToString
    · cases op <;> cases quotes
      exact frugal_functionToString _
    · exact (commits_method constructs quotes).only.mono fun _ => Request.Settles.frugal

end Plain

theorem Wrapper.frugal_method (op : Op s) :
    (Wrapper.method op : Program σ s.Answer).Only Request.Frugal := by
  refine Program.Only.bind (.look fun _ _ => .done _) fun c => ?_
  split
  next t _ => exact only_perform (op.redirect t) trivial
  next => exact frugal_giveUp s _ _

theorem BaseHandler.frugal_method (base : BaseHandler) (op : Op s) :
    (base.method op : Program σ s.Answer).Only Request.Frugal := by
  cases base with
  | plain => exact Plain.frugal_method op
  | wrapper => exact Wrapper.frugal_method op

theorem Engine.frugal_incapable? (op : Op s) :
    (incapable? op : Program σ _).Only Request.Frugal := by
  have refused (name : Context → String) : (do
      let message := name (← Program.context)
      some <$> giveUp .value .typeError message : Program σ _).Only Request.Frugal :=
    .look fun _ _ => (frugal_giveUp .value .typeError _).map some
  cases op with
  | call o this args =>
    refine Program.Only.bind (only_perform (.isCallable o) trivial) fun able => ?_
    split
    · exact .done _
    · exact refused _
  | construct o args newTarget =>
    refine Program.Only.bind (only_perform (.isConstructor o) trivial) fun able => ?_
    split
    · exact .done _
    · exact refused _
  | _ => exact .done _

/-! Runs of the engine. -/

def Machine.Grows (m : Machine σ) (ran : Except Stop (α × Machine σ)) : Prop :=
  ∀ ⦃a m'⦄, ran = .ok (a, m') → m.context.Grows (· ∈ fixedTexts) m'.context

namespace Engine

variable {m : Machine σ}

theorem grows_pure (a : α) (m : Machine σ) : m.Grows ((pure a : Run σ α) m) := by
  rintro _ _ ⟨⟩
  exact Std.Refl.refl _

theorem grows_bind {x : Run σ α} {f : α → Run σ β} (first : m.Grows (x m))
    (rest : ∀ a (m₁ : Machine σ), m₁.Grows (f a m₁)) : m.Grows ((x >>= f) m) := by
  intro b m' ran
  obtain ⟨a, m₁, ran, more⟩ := Run.bind_eq_ok.1 ran
  exact IsTrans.trans _ _ _ (first ran) (rest a m₁ more)

theorem grows_nested {x : Run σ α} (inside : (m.deeper 1).Grows (x (m.deeper 1))) :
    m.Grows (x.nested 1 m) := by
  intro a m' ran literate
  cases ended : x (m.deeper 1) with
  | error why =>
    rw [Run.nested_of_error ended] at ran
    cases ran
  | ok result =>
    obtain ⟨b, m₁⟩ := result
    rw [Run.nested_of_ok ended] at ran
    cases ran
    -- Only the depth is different on the way in and on the way out.
    have entered : m.context.Grown (· ∈ fixedTexts) (m.deeper 1).context := literate.rest rfl rfl
    have body := entered.trans literate (inside ended entered.literate)
    exact body.trans literate (body.literate.rest rfl rfl)

theorem grows_act {a : Action}
    (interns : Request.Interns (fun s => s ∈ fixedTexts ∨ m.context.Quotes s) (.act a)) :
    m.Grows (Run.update a.update m) := by
  intro x m' ran literate
  obtain ⟨c, updated, rfl⟩ := Run.update_eq_ok.1 ran
  exact (Action.grows interns.1 updated literate).mono interns.2

section

variable {answer : Answerer σ}
  (answers : ∀ (r : Request) (m : Machine σ),
    r.Interns (fun s => s ∈ fixedTexts ∨ m.context.Quotes s) → m.Grows (answer r m))

include answers

theorem grows_program {p : Program σ α} (only : p.Only Request.Frugal) (m : Machine σ) :
    m.Grows (p.run answer m) := by
  induction only generalizing m with
  | done a => exact grows_pure a m
  | look _ ih => exact ih m.context m.state m
  | @store s next _ ih => exact ih { m with state := s }
  | @ask r next frugal _ ih =>
    exact grows_bind (answers r m (frugal.mono fun _ => .inl)) fun x m₁ => ih x m₁

theorem grows_atDepth {p : Program σ s.Answer} (only : p.Only Request.Frugal) (m : Machine σ) :
    m.Grows (atDepth answer s (p.run answer) m) := by
  by_cases room : m.context.depth < m.context.maxDepth
  · rw [atDepth_of_room room]
    exact grows_nested (grows_program answers only (m.deeper 1))
  · rw [atDepth_of_full room]
    exact grows_program answers (frugal_giveUp ..) m

theorem grows_functionToString (o : ObjectId) (m : Machine σ) :
    m.Grows ((Ordinary.functionToString o).run.run answer m) := by
  rw [Ordinary.functionToString, Attempt.run_context]
  split
  next code name isConstructor found =>
    refine grows_bind (answers _ m ⟨rfl, fun s here => ?_⟩) fun v m₁ => grows_pure _ m₁
    rw [List.mem_singleton.1 here]
    exact .inr ⟨o, code, name, isConstructor, found, rfl⟩
  next => exact grows_program answers (frugal_failWith _ _) m

theorem grows_ordinary (op : Op s) (m : Machine σ) :
    m.Grows ((Ordinary.method op).run answer m) := by
  by_cases quotes : op.slot = .functionToString
  · cases op <;> cases quotes
    exact grows_functionToString answers _ m
  · exact grows_program answers (Ordinary.frugal_method quotes) m

variable {F : Foreign σ} (foreign : F.Only Request.Frugal)

include foreign

theorem grows_dispatch (op : Op s) (m : Machine σ) : m.Grows (dispatch F answer op m) := by
  unfold dispatch
  rw [Run.bind_context]
  cases m.context.get? op.subject with
  | none => exact grows_program answers (frugal_giveUp ..) m
  | some x =>
    dsimp only
    cases x.proxy? with
    | none => exact grows_ordinary answers op m
    | some p =>
      exact grows_atDepth answers
        (foreign.method_of_builtin (BaseHandler.frugal_method p.handler.base op)) m

theorem grows_perform (op : Op s) (m : Machine σ) : m.Grows (perform F answer op m) := by
  refine grows_bind (grows_program answers (frugal_incapable? op) m) fun early m₁ => ?_
  cases early with
  | some a => exact grows_pure a m₁
  | none => exact grows_dispatch answers foreign _ m₁

theorem grows_finalizeAll (os : List ObjectId) (m : Machine σ) :
    m.Grows (Collector.finalizeAll F answer os m) := by
  induction os generalizing m with
  | nil => exact grows_pure () m
  | cons o os ih =>
    unfold Collector.finalizeAll
    rw [Run.bind_context]
    cases m.context.handler? o with
    | none => exact ih m
    | some h =>
      exact grows_bind (grows_program answers (foreign.finalizer h o) m) fun _ m₁ => ih m₁

theorem grows_collect (m : Machine σ) : m.Grows (Collector.collect F answer m) := by
  intro n m' ran literate
  obtain ⟨mid, finalized, -, rfl⟩ := Collector.collect_eq_ok.1 ran
  have before := grows_finalizeAll answers foreign _ _ finalized literate
  exact before.trans literate (before.literate.sweep _ _ _)

theorem grows_step {r : Request} (m : Machine σ)
    (interns : r.Interns fun s => s ∈ fixedTexts ∨ m.context.Quotes s) :
    m.Grows (step F answer r m) := by
  have program {α : Type} {p : Program σ α} (only : p.Only Request.Frugal) :=
    grows_program answers only m
  cases r with
  | act a => exact grows_act interns
  | perform op => exact grows_perform answers foreign op m
  | invoke h op =>
    exact program (foreign.method_of_builtin (BaseHandler.frugal_method h.base op))
  | runFunction code this args => exact grows_atDepth answers (foreign.function code this args) m
  | enumerateFrom o visited seen listed =>
    exact program (Ordinary.frugal_enumerateFrom o visited seen listed)
  | collect => exact grows_collect answers foreign m
  | incumbentGlobal q => exact program (foreign.incumbentGlobal q)
  | enqueueJob q promise job site incumbent =>
    exact program (foreign.enqueueJob_of_reports Request.frugal_report q promise job site incumbent)
  | writePrincipals p => exact program (foreign.principals p)
  | hasPendingJobs => exact grows_pure (hasPendingJobs F m) m
  | isSystemPrincipal => exact grows_pure (isSystemPrincipal F m) m

end

section

variable {F : Foreign σ} (foreign : F.Only Request.Frugal)

include foreign

theorem grows_answer (fuel : Nat) (r : Request) (m : Machine σ)
    (interns : r.Interns fun s => s ∈ fixedTexts ∨ m.context.Quotes s) :
    m.Grows (answer F fuel r m) := by
  induction fuel generalizing r m with
  | zero => rintro _ _ ⟨⟩
  | succ fuel ih => exact grows_step ih foreign m interns

theorem grows_run (fuel : Nat) {p : Program σ α} (only : p.Only Request.Frugal) (m : Machine σ) :
    m.Grows (run F fuel p m) :=
  grows_program (grows_answer foreign fuel) only m

end

theorem law_literate : Law (fun _ => True) fun p q => p.context.StaysLiterate q.context where
  builtin _ _ := trivial
  refl _ := id
  trans first second := second ∘ first
  act _ ran := Action.staysLiterate _ ran
  below holds := holds
  enter _ literate := ⟨literate.valid, literate.named⟩
  leave _ _ literate := ⟨literate.valid, literate.named⟩
  sweep _ dead marked literate := (literate.sweep (T := fun _ => True) dead marked _).literate

/-- The context is there at some moment while a program of some embedder runs. -/
def Occurs (c : Context) : Prop :=
  ∃ (τ γ : Type) (F : Foreign τ) (fuel : Nat) (p : Program τ γ) (options : ContextOptions) (t : τ),
    ∃ μ ∈ runHistory F fuel p ⟨Context.create options, t⟩, μ.context = c

theorem Occurs.literate {c : Context} (occurs : Occurs c) : c.Literate := by
  obtain ⟨τ, γ, F, fuel, p, options, t, μ, told, rfl⟩ := occurs
  have follows := law_literate.follows_run F.only_any fuel (.any p) ⟨Context.create options, t⟩
  have here : μ.toPlace ∈ History.places (runHistory F fuel p ⟨Context.create options, t⟩) :=
    List.mem_map_of_mem told
  exact (List.pairwise_cons.1 follows.along).1 _ here (Context.literate_create options)

end Engine

namespace Program

/-- A sequence of operations, strict checks, exits after failures and collections, each
chosen after what came before it; keys and values are given by handles. -/
inductive ByHandle : Program σ α → Prop
  | done (a : α) : ByHandle (done a)
  | look {next : Context → σ → Program σ α} :
      (∀ c s, ByHandle (next c s)) → ByHandle (look next)
  | store {s : σ} {next : Program σ α} : ByHandle next → ByHandle (store s next)
  | perform {s : Shape} (op : Op s) {next : s.Answer → Program σ α} :
      (∀ a, ByHandle (next a)) → ByHandle (perform op >>= next)
  | enumerateThroughPrototypes (o : ObjectId) (listed : List PropertyKey)
      {next : Listing → Program σ α} :
      (∀ l, ByHandle (next l)) → ByHandle (enumerateThroughPrototypes o listed >>= next)
  | readThrough (d : Descriptor) (receiver : Value) {next : Fallible Value → Program σ α} :
      (∀ v, ByHandle (next v)) → ByHandle ((Ordinary.readThrough d receiver).run >>= next)
  | setWithOwn (o : ObjectId) (k : PropertyKey) (v receiver : Value) (own : Option Descriptor)
      {next : Fallible Outcome → Program σ α} : (∀ out, ByHandle (next out)) →
      ByHandle ((Ordinary.setWithOwn o k v receiver own).run >>= next)
  | checkStrict (outcome : Outcome) (k : PropertyKey) {next : Fallible Unit → Program σ α} :
      (∀ a, ByHandle (next a)) → ByHandle ((Attempt.checkStrict outcome k).run >>= next)
  | checkStrictObject (outcome : Outcome) {next : Fallible Unit → Program σ α} :
      (∀ a, ByHandle (next a)) → ByHandle ((Attempt.checkStrictObject outcome).run >>= next)
  | escape {next : Escape → Program σ α} :
      (∀ e, ByHandle (next e)) → ByHandle (escape >>= next)
  | collect {next : Nat → Program σ α} : (∀ n, ByHandle (next n)) → ByHandle (collect >>= next)
  | maybeCollect {next : Nat → Program σ α} :
      (∀ n, ByHandle (next n)) → ByHandle (maybeCollect >>= next)

theorem frugal_checkStrict (outcome : Outcome) (k : PropertyKey) :
    (Attempt.checkStrict outcome k : Attempt σ Unit).run.Only Request.Frugal := by
  unfold Attempt.checkStrict
  split
  · exact .done _
  · exact Attempt.Only.bind only_context fun c => frugal_failWith _ _

theorem frugal_checkStrictObject (outcome : Outcome) :
    (Attempt.checkStrictObject outcome : Attempt σ Unit).run.Only Request.Frugal := by
  unfold Attempt.checkStrictObject
  split
  · exact .done _
  · exact frugal_failWith _ _

theorem frugal_escape : (escape : Program σ Escape).Only Request.Frugal := by
  refine .look fun c _ => .look fun c' _ => .ask ⟨rfl, nofun⟩ fun _ => ?_
  cases c'.pending <;> exact .done _

theorem frugal_maybeCollect : (maybeCollect : Program σ Nat).Only Request.Frugal := by
  refine Program.Only.bind (.look fun _ _ => .done _) fun c => ?_
  split
  · exact .ask trivial fun _ => .done _
  · exact .done _

theorem ByHandle.frugal {p : Program σ α} (byHandle : p.ByHandle) : p.Only Request.Frugal := by
  induction byHandle with
  | done a => exact .done a
  | look _ ih => exact .look ih
  | store _ ih => exact .store ih
  | perform op _ ih => exact (only_perform op trivial).bind ih
  | enumerateThroughPrototypes o listed _ ih => exact .ask trivial ih
  | readThrough d receiver _ ih => exact (Ordinary.frugal_readThrough d receiver).bind ih
  | setWithOwn o k v receiver own _ ih =>
    exact (Ordinary.frugal_setWithOwn o k v receiver own).bind ih
  | checkStrict outcome k _ ih => exact (frugal_checkStrict outcome k).bind ih
  | checkStrictObject outcome _ ih => exact (frugal_checkStrictObject outcome).bind ih
  | escape _ ih => exact frugal_escape.bind ih
  | collect _ ih => exact .ask trivial ih
  | maybeCollect _ ih => exact frugal_maybeCollect.bind ih

end Program

theorem Context.Grown.size_le {c c' : Context} (grown : c.Grown (· ∈ fixedTexts) c') :
    c'.atoms.size ≤ c.atoms.size + (fixedTexts.length + c.sources.length) := by
  obtain ⟨new, more, nodup, reasons⟩ := grown.texts
  have among : new ⊆ fixedTexts ++ c.sources := fun s here =>
    List.mem_append.2 ((reasons s here).2.imp_right mem_sources.2)
  have few : new.length ≤ (fixedTexts ++ c.sources).length :=
    (List.subperm_of_subset nodup among).length_le
  rw [AtomTable.size, AtomTable.size, more, List.length_append]
  rw [List.length_append] at few
  exact Nat.add_le_add_left few _

namespace Engine

/-- Texts do not accumulate. On a context that occurs while any program runs, let a
sequence of operations, strict checks, exits and collections run, with traps and functions
that intern fixed texts at most. Old texts stay what they are, and every new one is fixed
or the source of a function that was there at the start. So there is a bound on their
number that depends on neither the sequence nor the errors on the way. -/
theorem texts_bounded {F : Foreign σ} {fuel : Nat} {p : Program σ α}
    {m m' : Machine σ} {a : α} (occurs : Occurs m.context)
    (foreign : F.Only Request.Frugal) (byHandle : p.ByHandle)
    (ran : run F fuel p m = .ok (a, m')) :
    m.context.atoms.texts <+: m'.context.atoms.texts ∧
    (∀ s ∈ m'.context.atoms.texts,
      s ∈ m.context.atoms.texts ∨ s ∈ fixedTexts ∨ s ∈ m.context.sources) ∧
    m'.context.atoms.size ≤
      m.context.atoms.size + (fixedTexts.length + m.context.sources.length) := by
  have grown := grows_run foreign fuel byHandle.frugal m ran occurs.literate
  obtain ⟨new, more, nodup, reasons⟩ := grown.texts
  refine ⟨⟨new, more.symm⟩, fun s here => ?_, grown.size_le⟩
  rw [more] at here
  rcases List.mem_append.1 here with old | late
  · exact .inl old
  · exact .inr ((reasons s late).2.imp_right Context.mem_sources.2)

def equipped : ObjectId × Context :=
  (Update.newFunction ⟨0⟩ "f" (Context.create {})).getD default

def grumbling : Program Unit Unit := do
  let _ ← Program.perform (.functionToString equipped.1 false)
  let _ ← Program.perform (.functionToString Context.global false)
  let _ ← (Attempt.checkStrictObject (.refused .notExtensible)).run
  let _ ← Program.escape
  return ()

theorem grumbling_bounded : ∃ m',
    run Foreign.idle 2 grumbling ⟨equipped.2, ()⟩ = .ok ((), m') ∧
      m'.context.atoms.size ≤
        equipped.2.atoms.size + (fixedTexts.length + equipped.2.sources.length) := by
  have occurs : Occurs equipped.2 :=
    ⟨Unit, ObjectId, Foreign.idle, 1, Program.newFunction ⟨0⟩ "f", {}, (), _,
      .tail _ (.head _), rfl⟩
  have byHandle : grumbling.ByHandle :=
    .perform _ fun _ => .perform _ fun _ => .checkStrictObject _ fun _ => .escape fun _ => .done ()
  have ends : (run Foreign.idle 2 grumbling ⟨equipped.2, ()⟩).isOk := by decide +kernel
  cases ran : run Foreign.idle 2 grumbling ⟨equipped.2, ()⟩ with
  | error why =>
    rw [ran] at ends
    cases ends
  | ok result => exact ⟨_, rfl, (texts_bounded occurs (Foreign.only_idle _) byHandle ran).2.2⟩

end Engine

end ProxyEngine
