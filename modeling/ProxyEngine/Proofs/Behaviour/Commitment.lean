import ProxyEngine.Proofs.Behaviour.Propagation

/-! When the built-in methods change something. Reading methods make reading requests
only. The others read first, and the one request that may change the context is their last:
what it answers is what the method answers, so a method that fails or is refused afterwards
does not exist. The methods for constructing are the exception; they store a new object and
then run foreign code. -/

namespace ProxyEngine

/-- What an answer says about the context: the operation failed, the context is as it was,
or it may be another one. -/
inductive Effect where
  | failed
  | kept
  | changed
  deriving DecidableEq

def Slot.stores : Slot → Bool
  | defineProperty | delete | setPrototype | setImmutablePrototype | preventExtensions | set
  | construct | functionToString => true
  | _ => false

def Shape.isRefusal : (s : Shape) → s.Answer → Bool
  | .outcome, (.ok out : Fallible Outcome) => !out.isOk
  | _, _ => false

def Outcome.effect (out : Outcome) : Effect :=
  if out.isOk then .changed else .kept

variable {σ α β : Type} {s : Shape}

/-- The effect that comes with an answer of the operation. -/
def Op.effect (op : Op s) (a : s.Answer) : Effect :=
  if s.isFailure a then .failed
  else if op.slot.stores && !s.isRefusal a then .changed
  else .kept

def Fallible.effect (f : α → Effect) : Fallible α → Effect
  | .ok a => f a
  | .error _ => .failed

theorem Outcome.effect_ne_failed (out : Outcome) : out.effect ≠ .failed := by
  unfold effect
  split <;> simp

namespace Op

theorem effect_of_reads {op : Op s} (reads : op.slot.stores = false) (a : s.Answer) :
    op.effect a = if s.isFailure a then .failed else .kept := by
  unfold effect
  rw [reads, Bool.false_and, if_neg Bool.false_ne_true]

theorem effect_eq_failed {op : Op s} {a : s.Answer} :
    op.effect a = .failed ↔ s.isFailure a = true := by
  unfold effect
  cases s.isFailure a with
  | true => simp
  | false => cases op.slot.stores && !s.isRefusal a <;> simp

theorem effect_of_refusal (op : Op s) {a : s.Answer} (refused : s.isRefusal a = true) :
    op.effect a = .kept := by
  have good : s.isFailure a = false := by
    cases s with
    | outcome =>
      rcases a with e | out
      · cases refused
      · rfl
    | _ => cases refused
  unfold effect
  rw [good, refused, Bool.not_true, Bool.and_false]
  rfl

theorem effect_outcome (op : Op .outcome) (a : Fallible Outcome) :
    op.effect a = a.effect Outcome.effect := by
  have stores : op.slot.stores = true := by cases op <;> rfl
  unfold effect
  rw [stores]
  cases a with
  | error e => rfl
  | ok out => cases ok : out.isOk <;> simp [Shape.isFailure, Fallible.isFailure, Shape.isRefusal,
      Fallible.effect, Outcome.effect, ok]

@[simp] theorem effect_redirect (t : ObjectId) (op : Op s) (a : s.Answer) :
    (op.redirect t).effect a = op.effect a := by
  unfold effect
  rw [slot_redirect]

end Op

namespace Request

/-- Requests that only read, the reports included that end a failed reading. -/
def Reads : Request → Prop
  | act (.report ..) | runFunction .. | enumerateFrom .. => True
  | perform op => op.slot.stores = false
  | _ => False

def Settles : Request → Prop
  | act (.report ..) | act (.defineStored ..) | act (.deleteStored ..) | act (.storePrototype ..)
  | act (.fixPrototype _) | act (.storeExtensible _ false) => True
  | runFunction .. | enumerateFrom .. => True
  | perform op => op.slot ≠ .construct
  | _ => False

def effect : (r : Request) → r.Response → Effect
  | act (.report ..), _ => .failed
  | act (.defineStored ..), (out : Outcome) => out.effect
  | act (.deleteStored ..), (out : Outcome) => out.effect
  | act (.storePrototype ..), (out : Outcome) => out.effect
  | perform op, a => op.effect a
  | runFunction .., (a : Fallible Value) => a.effect fun _ => .kept
  | enumerateFrom .., (l : Listing) => if l.failed then .failed else .kept
  | _, _ => .changed

def SettlesOrQuotes (r : Request) : Prop :=
  r.Settles ∨ ∃ text, r = act (.newString text)

theorem Reads.settles {r : Request} (reads : r.Reads) : r.Settles := by
  cases r with
  | act a => cases a <;> trivial
  | perform op =>
    intro same
    have reads : op.slot.stores = false := reads
    rw [same] at reads
    cases reads
  | _ => exact reads

theorem Reads.effect {r : Request} (reads : r.Reads) (x : r.Response) :
    r.effect x = if r.isFailure x then .failed else .kept := by
  cases r with
  | act a => cases a <;> first | rfl | cases reads
  | @perform s op =>
    exact op.effect_of_reads reads x
  | runFunction => cases x <;> rfl
  | enumerateFrom => rfl
  | _ => cases reads

end Request

namespace Program

variable {P P' : Request → Prop} {effect : α → Effect} {effect' : β → Effect}

/-- The program goes on as long as nothing has changed, ends with the first request that
failed or may have changed something, and then with the effect of that request. -/
inductive Commits (P : Request → Prop) (effect : α → Effect) : Program σ α → Prop
  | done {a : α} : effect a ≠ .failed → Commits P effect (done a)
  | look {next : Context → σ → Program σ α} :
      (∀ c s, Commits P effect (next c s)) → Commits P effect (look next)
  | ask {r : Request} {next : r.Response → Program σ α} : P r →
      (∀ x, r.effect x = .kept → Commits P effect (next x)) →
      (∀ x, r.effect x ≠ .kept → ∃ a, next x = .done a ∧ effect a = r.effect x) →
      Commits P effect (.ask r next)

theorem Commits.mono {p : Program σ α} (commits : p.Commits P effect) (implies : ∀ r, P r → P' r) :
    p.Commits P' effect := by
  induction commits with
  | done good => exact .done good
  | look _ ih => exact .look ih
  | ask holds _ ends ih => exact .ask (implies _ holds) ih ends

theorem Commits.congr {effect' : α → Effect} {p : Program σ α} (commits : p.Commits P effect)
    (same : ∀ a, effect a = effect' a) : p.Commits P effect' :=
  (funext same : effect = effect') ▸ commits

theorem Commits.only {p : Program σ α} (commits : p.Commits P effect) : p.Only P := by
  induction commits with
  | done => exact .done _
  | look _ ih => exact .look ih
  | @ask r next holds _ ends ih =>
    refine .ask holds fun x => ?_
    by_cases kept : r.effect x = .kept
    · exact ih x kept
    · obtain ⟨a, last, -⟩ := ends x kept
      rw [last]
      exact .done a

theorem Commits.bind {p : Program σ α} {f : α → Program σ β} (first : p.Commits P effect)
    (rest : ∀ a, effect a = .kept → (f a).Commits P effect')
    (ends : ∀ a, effect a ≠ .kept → ∃ b, f a = .done b ∧ effect' b = effect a) :
    (p >>= f).Commits P effect' := by
  induction first with
  | @done a good =>
    by_cases kept : effect a = .kept
    · exact rest a kept
    · obtain ⟨b, last, same⟩ := ends a kept
      rw [done_bind, last]
      exact .done (same ▸ good)
  | look _ ih => exact .look ih
  | ask holds _ last ih =>
    refine .ask holds ih fun x changed => ?_
    obtain ⟨a, here, same⟩ := last x changed
    obtain ⟨b, there, same'⟩ := ends a (same ▸ changed)
    exact ⟨b, by rw [here]; exact there, same'.trans same⟩

theorem Commits.map {p : Program σ α} (commits : p.Commits P effect) {f : α → β}
    (same : ∀ a, effect' (f a) = effect a) : (f <$> p).Commits P effect' := by
  rw [map_eq_pure_bind]
  refine commits.bind (fun a kept => .done ?_) fun a _ => ⟨f a, rfl, same a⟩
  rw [same, kept]
  decide

theorem commits_request {r : Request} (holds : P r) :
    (ask r done : Program σ r.Response).Commits P r.effect :=
  .ask holds (fun _ kept => .done (by rw [kept]; decide)) fun x _ => ⟨x, rfl, rfl⟩

theorem commits_perform (op : Op s) (holds : P (.perform op)) :
    (perform op : Program σ s.Answer).Commits P op.effect :=
  commits_request (r := .perform op) holds

theorem commits_act {a : Action} {f : a.Response → β} (holds : P (.act a))
    (changes : ∀ x, (Request.act a).effect x = .changed) (same : ∀ b, effect' (f b) = .changed) :
    (f <$> act a : Program σ β).Commits P effect' :=
  (commits_request (r := .act a) holds).map fun x => (same x).trans (changes x).symm

theorem Propagates.commits {fails : α → Bool} {p : Program σ α} (propagates : p.Propagates fails)
    (only : p.Only Request.Reads) :
    p.Commits Request.Reads fun a => if fails a then .failed else .kept := by
  induction propagates with
  | done good => exact .done (by rw [good]; decide)
  | look _ ih =>
    obtain _ | later := only
    exact .look fun c s => ih c s (later c s)
  | @ask r next _ _ ends ih =>
    obtain _ | _ | _ | ⟨reads, later⟩ := only
    have effect := reads.effect
    refine .ask reads (fun x kept => ?_) fun x failed => ?_
    · rw [effect x] at kept
      cases bad : r.isFailure x with
      | false => exact ih x bad (later x)
      | true =>
        rw [bad] at kept
        cases kept
    · rw [effect x] at failed ⊢
      cases bad : r.isFailure x with
      | false =>
        rw [bad] at failed
        exact (failed rfl).elim
      | true =>
        obtain ⟨a, last, bad⟩ := ends x bad
        exact ⟨a, last, by rw [bad]⟩

end Program

/-! What the reading methods ask for. -/

namespace Attempt

variable {P : Request → Prop}

def Only (P : Request → Prop) (p : Attempt σ α) : Prop :=
  Program.Only P p.run

theorem Only.pure (a : α) : Only P (pure a : Attempt σ α) :=
  .done _

theorem Only.bind {p : Attempt σ α} {f : α → Attempt σ β} (first : Only P p)
    (rest : ∀ a, Only P (f a)) : Only P (p >>= f) := by
  unfold Only
  rw [ExceptT.run_bind]
  refine Program.Only.bind first fun a => ?_
  cases a with
  | ok a => exact rest a
  | error e => exact .done _

theorem Only.map {p : Attempt σ α} (only : Only P p) (f : α → β) : Only P (f <$> p) := by
  rw [map_eq_pure_bind]
  exact only.bind fun a => .pure _

theorem only_lift {p : Program σ α} (only : p.Only P) : Only P (lift p) :=
  Program.Only.map only Except.ok

theorem only_context : Only P (context : Attempt σ Context) :=
  .look fun _ _ => .done _

theorem only_failWith (reports : ∀ kind message, P (.act (.report kind message)))
    (kind : ErrorKind) (message : String) : Only P (failWith kind message : Attempt σ α) :=
  .ask (reports kind message) fun _ => .done _

end Attempt

namespace Program

variable {P : Request → Prop}

theorem only_perform (op : Op s) (holds : P (.perform op)) :
    (perform op : Program σ s.Answer).Only P :=
  .ask holds fun _ => .done _

theorem only_giveUp (s : Shape) (reports : ∀ kind message, P (.act (.report kind message)))
    (kind : ErrorKind) (message : String) :
    (giveUp s kind message : Program σ s.Answer).Only P := by
  unfold giveUp
  split
  · exact .ask (reports kind message) fun _ => .done _
  · exact .done _

end Program

open Attempt Program

namespace Ordinary

theorem only_readThrough (d : Descriptor) (receiver : Value) :
    Attempt.Only Request.Reads (readThrough d receiver : Attempt σ Value) := by
  unfold readThrough
  split
  · split
    · exact only_perform (.call _ receiver []) rfl
    · exact .pure _
  · exact .pure _

theorem only_visitKeys (o : ObjectId) (ks seen listed : List PropertyKey) :
    (visitKeys o ks seen listed : Program σ _).Only Request.Reads := by
  induction ks generalizing seen listed with
  | nil => exact .done _
  | cons k ks ih =>
    unfold visitKeys
    split
    · exact ih seen listed
    · refine Program.Only.bind (only_perform (.getOwnProperty o k) rfl) fun d => ?_
      cases d with
      | error e => exact .done _
      | ok d => exact ih (k :: seen) _

theorem only_enumerateFrom (o : ObjectId) (visited : List ObjectId)
    (seen listed : List PropertyKey) :
    (enumerateFrom o visited seen listed : Program σ Listing).Only Request.Reads := by
  unfold enumerateFrom
  split
  · exact .done _
  · refine Program.Only.bind (only_perform (.ownKeys o []) rfl) fun own => ?_
    split
    · exact .done _
    · refine (only_visitKeys o own.keys seen listed).bind fun (here, seen) => ?_
      dsimp only
      split
      · exact .done _
      · refine Program.Only.bind (only_perform (.getPrototype o) rfl) fun proto => ?_
        rcases proto with _ | _ | p
        · exact .done _
        · exact .done _
        · exact .ask trivial fun _ => .done _

theorem only_get (o : ObjectId) (receiver : Value) (k : PropertyKey) :
    Attempt.Only Request.Reads (get o receiver k : Attempt σ Value) := by
  refine .bind only_context fun c => ?_
  split
  · exact only_readThrough _ receiver
  · split
    next p _ => exact only_perform (.get p receiver k) rfl
    next => exact .pure _

theorem only_has (o : ObjectId) (k : PropertyKey) :
    Attempt.Only Request.Reads (has o k : Attempt σ Bool) := by
  refine .bind only_context fun c => ?_
  split
  · exact .pure _
  · split
    next p _ => exact only_perform (.has p k) rfl
    next => exact .pure _

theorem only_call (o : ObjectId) (this : Value) (args : List Value) :
    Attempt.Only Request.Reads (call o this args : Attempt σ Value) := by
  refine .bind only_context fun c => ?_
  split
  · exact .ask trivial fun _ => .done _
  · exact only_failWith (fun _ _ => trivial) _ _

theorem only_method {op : Op s} (reads : op.slot.stores = false) :
    (method op : Program σ s.Answer).Only Request.Reads := by
  cases op with
  | enumerate o listed => exact .ask trivial fun _ => .done _
  | has o k => exact only_has o k
  | get o receiver k => exact only_get o receiver k
  | call o this args => exact only_call o this args
  | defineProperty | delete | setPrototype | setImmutablePrototype | preventExtensions | set
  | construct | functionToString => cases reads
  | _ => exact .look fun _ _ => .done _

end Ordinary

namespace Plain

theorem only_has (o : ObjectId) (k : PropertyKey) :
    Attempt.Only Request.Reads (has o k : Attempt σ Bool) := by
  refine .bind (only_perform (.getOwnProperty o k) rfl) fun own => ?_
  split
  · exact .pure _
  · refine .bind (only_perform (.getPrototype o) rfl) fun proto => ?_
    cases proto with
    | some p => exact only_perform (.has p k) rfl
    | none => exact .pure _

theorem only_get (o : ObjectId) (receiver : Value) (k : PropertyKey) :
    Attempt.Only Request.Reads (get o receiver k : Attempt σ Value) := by
  refine .bind (only_perform (.getOwnProperty o k) rfl) fun own => ?_
  cases own with
  | some d => exact Ordinary.only_readThrough d receiver
  | none =>
    refine .bind (only_perform (.getPrototype o) rfl) fun proto => ?_
    cases proto with
    | some p => exact only_perform (.get p receiver k) rfl
    | none => exact .pure _

theorem only_hasOwn (o : ObjectId) (k : PropertyKey) :
    Attempt.Only Request.Reads (hasOwn o k : Attempt σ Bool) :=
  Attempt.Only.map (P := Request.Reads) (only_perform (.getOwnProperty o k) rfl) _

theorem only_enumerableAmong (o : ObjectId) (ks listed : List PropertyKey) :
    (enumerableAmong o ks listed : Program σ Listing).Only Request.Reads := by
  induction ks generalizing listed with
  | nil => exact .done _
  | cons k ks ih =>
    refine Program.Only.bind (only_perform (.getOwnProperty o k) rfl) fun d => ?_
    cases d with
    | error e => exact .done _
    | ok d => exact ih _

theorem only_ownEnumerableKeys (o : ObjectId) (listed : List PropertyKey) :
    (ownEnumerableKeys o listed : Program σ Listing).Only Request.Reads := by
  refine Program.Only.bind (only_perform (.ownKeys o []) rfl) fun own => ?_
  split
  · exact .done _
  · exact only_enumerableAmong o own.keys listed

theorem only_className (o : ObjectId) :
    (className o : Program σ String).Only Request.Reads := by
  refine Program.Only.bind (only_perform (.isCallable o) rfl) fun callable => ?_
  split <;> exact .done _

theorem only_method {op : Op s} (reads : op.slot.stores = false) :
    (method op : Program σ s.Answer).Only Request.Reads := by
  cases op with
  | enumerate o listed => exact .ask trivial fun _ => .done _
  | getPrototypeIfOrdinary o => exact .look fun _ _ => .done _
  | getPrototype o => exact .look fun _ _ => .done _
  | isExtensible o => exact .look fun _ _ => .done _
  | isCallable o => exact .look fun _ _ => .done _
  | has o k => exact only_has o k
  | get o receiver k => exact only_get o receiver k
  | hasOwn o k => exact only_hasOwn o k
  | ownEnumerableKeys o listed => exact only_ownEnumerableKeys o listed
  | className o => exact only_className o
  | isConstructor o => exact only_perform (.isCallable o) rfl
  | defineProperty | delete | setPrototype | setImmutablePrototype | preventExtensions | set
  | construct | functionToString => cases reads
  | _ => exact .done _

end Plain

/-! What the other methods end with. -/

namespace Program

variable {P : Request → Prop}

theorem commits_of_reads {op : Op s} (reads : op.slot.stores = false) {p : Program σ s.Answer}
    (propagates : p.Propagates s.isFailure) (only : p.Only Request.Reads) :
    p.Commits Request.Settles op.effect := by
  have commits := (propagates.commits only).mono fun _ => Request.Reads.settles
  exact commits.congr fun a => (op.effect_of_reads reads a).symm

theorem commits_outcome (op : Op .outcome) (holds : P (.perform op)) :
    (perform op : Program σ (Fallible Outcome)).Commits P (Fallible.effect Outcome.effect) :=
  (commits_perform op holds).congr op.effect_outcome

theorem commits_outcome_done (out : Outcome) :
    (pure (.ok out) : Program σ (Fallible Outcome)).Commits P (Fallible.effect Outcome.effect) :=
  .done out.effect_ne_failed

theorem commits_giveUp {effect : s.Answer → Effect}
    (failed : s.canFail = true → effect s.givenUp = .failed)
    (fixed : s.canFail = false → effect s.givenUp ≠ .failed) (kind : ErrorKind)
    (message : String) :
    (giveUp s kind message : Program σ s.Answer).Commits Request.Reads effect := by
  unfold giveUp
  cases can : s.canFail with
  | true => exact .ask trivial (fun _ kept => nomatch kept) fun _ _ => ⟨s.givenUp, rfl, failed can⟩
  | false => exact .done (fixed can)

theorem commits_givenUp (op : Op s) (kind : ErrorKind) (message : String) :
    (giveUp s kind message : Program σ s.Answer).Commits Request.Reads op.effect := by
  refine commits_giveUp (fun can => ?_) (fun never => ?_) kind message
  · rw [Op.effect_eq_failed, s.isFailure_givenUp, can]
  · rw [Ne, Op.effect_eq_failed, s.isFailure_givenUp, never]
    exact Bool.false_ne_true

end Program

namespace Attempt

variable {P : Request → Prop} {effect : β → Effect}

theorem commits_after (reads : ∀ r : Request, r.Reads → P r) {p : Attempt σ α}
    {f : α → Attempt σ β} (propagates : Attempt.Propagates p) (only : Attempt.Only Request.Reads p)
    (rest : ∀ a, (f a).run.Commits P (Fallible.effect effect)) :
    (p >>= f).run.Commits P (Fallible.effect effect) := by
  have first := (Program.Propagates.commits propagates only).mono reads
  rw [ExceptT.run_bind]
  refine first.bind (fun a kept => ?_) fun a failed => ?_
  · cases a with
    | ok a => exact rest a
    | error e => cases kept
  · cases a with
    | ok a => exact (failed rfl).elim
    | error e => exact ⟨_, rfl, rfl⟩

theorem commits_failWith (reports : ∀ kind message, P (.act (.report kind message)))
    (kind : ErrorKind) (message : String) :
    (failWith kind message : Attempt σ β).run.Commits P (Fallible.effect effect) :=
  .ask (reports kind message) (fun _ kept => nomatch kept) fun _ _ => ⟨.error {}, rfl, rfl⟩

end Attempt

namespace Ordinary

theorem commits_writeTo (receiver : ObjectId) (k : PropertyKey) (v : Value) :
    (writeTo receiver k v : Attempt σ Outcome).run.Commits Request.Settles
      (Fallible.effect Outcome.effect) := by
  refine commits_after (fun _ => Request.Reads.settles)
    (propagates_perform (.getOwnProperty receiver k))
    (only_perform (.getOwnProperty receiver k) rfl) fun existing => ?_
  split
  · split
    · exact commits_outcome_done _
    · split
      · exact commits_outcome_done _
      · exact commits_outcome (.defineProperty receiver k (.valueOnly v)) nofun
  · exact commits_outcome (.defineProperty receiver k (.ofData v)) nofun

theorem commits_assign (own : Descriptor) (k : PropertyKey) (v receiver : Value) :
    (assign own k v receiver : Attempt σ Outcome).run.Commits Request.Settles
      (Fallible.effect Outcome.effect) := by
  unfold assign
  split
  · split
    next f _ =>
      exact commits_after (fun _ => Request.Reads.settles)
        (Attempt.Propagates.map (propagates_perform (.call f receiver [v])) _)
        (Attempt.Only.map (P := Request.Reads) (only_perform (.call f receiver [v]) rfl) _)
        fun _ => commits_outcome_done _
    next => exact commits_outcome_done _
  · split
    · exact commits_outcome_done _
    · split
      · exact commits_outcome_done _
      · exact commits_writeTo _ k v

theorem commits_setWithOwn (o : ObjectId) (k : PropertyKey) (v receiver : Value)
    (own : Option Descriptor) :
    (setWithOwn o k v receiver own : Attempt σ Outcome).run.Commits Request.Settles
      (Fallible.effect Outcome.effect) := by
  cases own with
  | some own => exact commits_assign own k v receiver
  | none =>
    refine commits_after (fun _ => Request.Reads.settles) (propagates_perform (.getPrototype o))
      (only_perform (.getPrototype o) rfl) fun proto => ?_
    cases proto with
    | some p => exact commits_outcome (.set p k v receiver) nofun
    | none => exact commits_assign _ k v receiver

theorem commits_set (o : ObjectId) (k : PropertyKey) (v receiver : Value) :
    (set o k v receiver : Attempt σ Outcome).run.Commits Request.Settles
      (Fallible.effect Outcome.effect) :=
  commits_after (fun _ => Request.Reads.settles) propagates_context only_context fun c =>
    commits_setWithOwn o k v receiver (c.ownDescriptor? o k)

theorem commits_stored {a : Action} (holds : Request.Settles (.act a)) (f : a.Response → Outcome)
    (same : ∀ x, (Request.act a).effect x = (f x).effect) (op : Op .outcome) :
    ((fun x => Except.ok (f x)) <$> Program.act a : Program σ (Fallible Outcome)).Commits
      Request.Settles op.effect :=
  (commits_request (r := .act a) holds).map fun x => (op.effect_outcome _).trans (same x).symm

theorem commits_method {op : Op s} (other : op.slot ≠ .construct)
    (silent : op.slot ≠ .functionToString) :
    (method op : Program σ s.Answer).Commits Request.Settles op.effect := by
  cases reads : op.slot.stores with
  | false =>
    exact commits_of_reads reads (propagates_method op) (only_method reads)
  | true =>
    cases op with
    | defineProperty o k d =>
      exact commits_stored (a := .defineStored o k d) trivial id (fun _ => rfl) _
    | delete o k => exact commits_stored (a := .deleteStored o k) trivial id (fun _ => rfl) _
    | setPrototype o p =>
      exact commits_stored (a := .storePrototype o p) trivial id (fun _ => rfl) _
    | setImmutablePrototype o =>
      exact commits_act (a := .fixPrototype o) trivial (fun _ => rfl) fun _ => rfl
    | preventExtensions o =>
      exact commits_stored (a := .storeExtensible o false) trivial (fun _ => .ok) (fun _ => rfl) _
    | set o k v receiver =>
      exact (commits_set o k v receiver).congr fun a => (Op.effect_outcome _ a).symm
    | construct => exact (other rfl).elim
    | functionToString => exact (silent rfl).elim
    | _ => cases reads

theorem commits_functionToString (o : ObjectId) :
    (functionToString o : Attempt σ Value).run.Commits Request.SettlesOrQuotes
      (Fallible.effect fun _ => .changed) := by
  refine commits_after (fun _ reads => .inl reads.settles) propagates_context only_context
    fun c => ?_
  split
  · exact commits_act (a := .newString _) (.inr ⟨_, rfl⟩) (fun _ => rfl) fun _ => rfl
  · exact commits_failWith (fun _ _ => .inl trivial) _ _

end Ordinary

namespace Plain

theorem commits_set (o : ObjectId) (k : PropertyKey) (v receiver : Value) :
    (set o k v receiver : Attempt σ Outcome).run.Commits Request.Settles
      (Fallible.effect Outcome.effect) :=
  commits_after (fun _ => Request.Reads.settles) (propagates_perform (.getOwnProperty o k))
    (only_perform (.getOwnProperty o k) rfl) fun own =>
      Ordinary.commits_setWithOwn o k v receiver own

theorem commits_method {op : Op s} (other : op.slot ≠ .construct)
    (silent : op.slot ≠ .functionToString) :
    (method op : Program σ s.Answer).Commits Request.Settles op.effect := by
  cases reads : op.slot.stores with
  | false =>
    exact commits_of_reads reads (propagates_method op) (only_method reads)
  | true =>
    cases op with
    | defineProperty | delete => exact .done (by rw [Op.effect_outcome]; nofun)
    | setPrototype o p =>
      exact Ordinary.commits_stored (a := .storePrototype o p) trivial id (fun _ => rfl) _
    | setImmutablePrototype o => exact .done nofun
    | preventExtensions o =>
      exact Ordinary.commits_stored (a := .storeExtensible o false) trivial (fun _ => .ok)
        (fun _ => rfl) _
    | set o k v receiver =>
      exact (commits_set o k v receiver).congr fun a => (Op.effect_outcome _ a).symm
    | construct => exact (other rfl).elim
    | functionToString => exact (silent rfl).elim
    | _ => cases reads

theorem commits_functionToString (o : ObjectId) :
    (functionToString o : Attempt σ Value).run.Commits Request.SettlesOrQuotes
      (Fallible.effect fun _ => .changed) := by
  refine commits_after (fun _ reads => .inl reads.settles)
    (propagates_lift (propagates_perform (.isCallable o)))
    (only_lift (only_perform (.isCallable o) rfl)) fun callable => ?_
  split
  · exact commits_act (a := .newString _) (.inr ⟨_, rfl⟩) (fun _ => rfl) fun _ => rfl
  · exact commits_failWith (fun _ _ => .inl trivial) _ _

end Plain

theorem Op.effect_functionToString (o : ObjectId) (b : Bool) (a : Fallible Value) :
    (Op.functionToString o b).effect a = a.effect fun _ => .changed := by
  cases a <;> rfl

theorem Ordinary.commits {op : Op s} (other : op.slot ≠ .construct) :
    (method op : Program σ s.Answer).Commits Request.SettlesOrQuotes op.effect := by
  by_cases silent : op.slot = .functionToString
  · cases op <;> cases silent
    exact (commits_functionToString _).congr fun a => (Op.effect_functionToString _ _ a).symm
  · exact (commits_method other silent).mono fun _ => .inl

theorem Plain.commits {op : Op s} (other : op.slot ≠ .construct) :
    (method op : Program σ s.Answer).Commits Request.SettlesOrQuotes op.effect := by
  by_cases silent : op.slot = .functionToString
  · cases op <;> cases silent
    exact (commits_functionToString _).congr fun a => (Op.effect_functionToString _ _ a).symm
  · exact (commits_method other silent).mono fun _ => .inl

theorem Wrapper.commits_method {op : Op s} (other : op.slot ≠ .construct) :
    (Wrapper.method op : Program σ s.Answer).Commits Request.Settles op.effect := by
  have looked : (context : Program σ Context).Commits Request.Settles fun _ => .kept :=
    .look fun _ _ => .done nofun
  refine looked.bind (fun c _ => ?_) fun _ changed => (changed rfl).elim
  split
  next t _ =>
    refine (commits_perform (op.redirect t) ?_).congr (op.effect_redirect t)
    rw [Request.Settles, Op.slot_redirect]
    exact other
  next => exact (commits_givenUp op _ _).mono fun _ => Request.Reads.settles

theorem BaseHandler.commits_method (base : BaseHandler) {op : Op s} (other : op.slot ≠ .construct) :
    (base.method op : Program σ s.Answer).Commits Request.SettlesOrQuotes op.effect := by
  cases base with
  | plain => exact Plain.commits other
  | wrapper => exact (Wrapper.commits_method other).mono fun _ => .inl

theorem Engine.commits_incapable? {op : Op s} (other : op.slot ≠ .construct) :
    (incapable? op : Program σ _).Commits Request.Reads fun early =>
      if early.any s.isFailure then .failed else .kept := by
  refine (propagates_incapable? op).commits ?_
  cases op with
  | call o this args =>
    refine Program.Only.bind (only_perform (.isCallable o) rfl) fun able => ?_
    split
    · exact .done _
    · exact .look fun c _ => (only_giveUp .value (fun _ _ => trivial) _ _).map _
  | construct => exact (other rfl).elim
  | _ => exact .done _

end ProxyEngine
