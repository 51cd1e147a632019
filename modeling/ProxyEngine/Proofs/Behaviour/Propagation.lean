import ProxyEngine.Engine
import ProxyEngine.Program.Convenience

/-! How the built-in methods deal with failure. They make few kinds of requests;
the first one that fails is their last, and they fail with it. They fail by
themselves only right after reporting an error. Facts about single requests
therefore carry over to whole methods, those of the handlers included. -/

namespace ProxyEngine

def Fallible.isFailure {α : Type} : Fallible α → Bool
  | .ok _ => false
  | .error _ => true

def Shape.isFailure : (s : Shape) → s.Answer → Bool
  | .descriptor, (a : Fallible (Option Descriptor)) => a.isFailure
  | .outcome, (a : Fallible Outcome) => a.isFailure
  | .keys _, (l : Listing) => l.failed
  | .ordinaryPrototype, (a : Fallible OrdinaryPrototype) => a.isFailure
  | .prototype, (a : Fallible (Option ObjectId)) => a.isFailure
  | .flag, (a : Fallible Bool) => a.isFailure
  | .value, (a : Fallible Value) => a.isFailure
  | .text, _ | .capability, _ => false

theorem Shape.isFailure_givenUp (s : Shape) : s.isFailure s.givenUp = s.canFail := by
  cases s <;> rfl

def Action.Builtin : Action → Prop
  | newString _ | key _ | newObject _ | defineStored .. | deleteStored .. | storePrototype ..
  | fixPrototype _ | report .. => True
  | storeExtensible _ extensible => extensible = false
  | _ => False

namespace Request

def Builtin : Request → Prop
  | act a => a.Builtin
  | perform _ | runFunction .. | enumerateFrom .. => True
  | _ => False

/-- Whether the response says that the request failed. A report counts as failed: what
reports an error does not go on. -/
def isFailure : (r : Request) → r.Response → Bool
  | act (.report ..), _ => true
  | perform (s := s) _, a => s.isFailure a
  | runFunction .., (a : Fallible Value) => a.isFailure
  | enumerateFrom .., (l : Listing) => l.failed
  | _, _ => false

end Request

namespace Program

variable {σ α β : Type} {P P' : Request → Prop}

theorem Only.mono {p : Program σ α} (only : p.Only P) (implies : ∀ r, P r → P' r) :
    p.Only P' := by
  induction only with
  | done a => exact .done a
  | look _ ih => exact .look ih
  | store _ ih => exact .store ih
  | ask holds _ ih => exact .ask (implies _ holds) ih

theorem Only.any (p : Program σ α) : p.Only fun _ => True := by
  induction p with
  | done a => exact .done a
  | look _ ih => exact .look ih
  | store _ _ ih => exact .store ih
  | ask r _ ih => exact .ask trivial ih

theorem Only.bind {p : Program σ α} {f : α → Program σ β} (first : p.Only P)
    (rest : ∀ a, (f a).Only P) : (p >>= f).Only P := by
  induction first with
  | done a => exact rest a
  | look _ ih => exact .look ih
  | store _ ih => exact .store ih
  | ask holds _ ih => exact .ask holds ih

theorem Only.map {p : Program σ α} (only : p.Only P) (f : α → β) : (f <$> p).Only P := by
  rw [map_eq_pure_bind]
  exact only.bind fun a => .done _

/-- The program makes built-in requests only, goes on while they succeed, and ends in
failure when one has failed and in no other case. -/
inductive Propagates (fails : α → Bool) : Program σ α → Prop
  | done {a : α} : fails a = false → Propagates fails (done a)
  | look {next : Context → σ → Program σ α} :
      (∀ c s, Propagates fails (next c s)) → Propagates fails (look next)
  | ask {r : Request} {next : r.Response → Program σ α} : r.Builtin →
      (∀ x, r.isFailure x = false → Propagates fails (next x)) →
      (∀ x, r.isFailure x = true → ∃ a, next x = .done a ∧ fails a = true) →
      Propagates fails (.ask r next)

variable {fails : α → Bool} {fails' : β → Bool}

theorem Propagates.only {p : Program σ α} (propagates : p.Propagates fails) :
    p.Only Request.Builtin := by
  induction propagates with
  | done => exact .done _
  | look _ ih => exact .look ih
  | @ask r next builtin _ ends ih =>
    refine .ask builtin fun x => ?_
    cases failed : r.isFailure x with
    | false => exact ih x failed
    | true =>
      obtain ⟨a, last, -⟩ := ends x failed
      rw [last]
      exact .done a

theorem Propagates.bind {p : Program σ α} {f : α → Program σ β} (first : p.Propagates fails)
    (rest : ∀ a, fails a = false → (f a).Propagates fails')
    (ends : ∀ a, fails a = true → ∃ b, f a = .done b ∧ fails' b = true) :
    (p >>= f).Propagates fails' := by
  induction first with
  | done good => exact rest _ good
  | look _ ih => exact .look ih
  | ask builtin _ last ih =>
    refine .ask builtin ih fun x failed => ?_
    obtain ⟨a, same, bad⟩ := last x failed
    rw [same]
    exact ends a bad

theorem Propagates.after {p : Program σ α} {f : α → Program σ β}
    (first : p.Propagates fun _ => false) (rest : ∀ a, (f a).Propagates fails') :
    (p >>= f).Propagates fails' :=
  first.bind (fun a _ => rest a) fun _ failed => nomatch failed

theorem Propagates.map {p : Program σ α} (propagates : p.Propagates fails) {f : α → β}
    (same : ∀ a, fails' (f a) = fails a) : (f <$> p).Propagates fails' := by
  rw [map_eq_pure_bind]
  exact propagates.bind (fun a good => .done ((same a).trans good))
    fun a bad => ⟨f a, rfl, (same a).trans bad⟩

theorem propagates_request {r : Request} (builtin : r.Builtin) :
    (ask r done : Program σ r.Response).Propagates r.isFailure :=
  .ask builtin (fun _ good => .done good) fun x bad => ⟨x, rfl, bad⟩

theorem propagates_perform {s : Shape} (op : Op s) :
    (perform op : Program σ s.Answer).Propagates s.isFailure :=
  propagates_request (r := .perform op) trivial

theorem propagates_act {a : Action} (builtin : a.Builtin)
    (never : ∀ x, (Request.act a).isFailure x = false) :
    (act a : Program σ a.Response).Propagates fun _ => false :=
  .ask builtin (fun _ _ => .done rfl) fun x failed => nomatch (never x).symm.trans failed

theorem propagates_reads (f : Context → α) (good : ∀ c, fails (f c) = false) :
    (reads f : Program σ α).Propagates fails :=
  .look fun c _ => .done (good c)

theorem propagates_giveUp (s : Shape) (kind : ErrorKind) (message : String) :
    (giveUp s kind message : Program σ s.Answer).Propagates s.isFailure := by
  unfold giveUp
  cases can : s.canFail with
  | true =>
    exact .ask trivial (fun _ good => nomatch good)
      fun _ _ => ⟨s.givenUp, rfl, s.isFailure_givenUp.trans can⟩
  | false => exact .done (s.isFailure_givenUp.trans can)

end Program

namespace Attempt

open Program

variable {σ α β : Type}

def Propagates (p : Attempt σ α) : Prop :=
  Program.Propagates Fallible.isFailure p.run

theorem Propagates.pure (a : α) : Propagates (pure a : Attempt σ α) :=
  .done rfl

theorem Propagates.bind {p : Attempt σ α} {f : α → Attempt σ β} (first : Propagates p)
    (rest : ∀ a, Propagates (f a)) : Propagates (p >>= f) := by
  unfold Propagates
  rw [ExceptT.run_bind]
  refine Program.Propagates.bind first (fun a good => ?_) fun a bad => ?_
  · cases a with
    | ok a => exact rest a
    | error e => cases good
  · cases a with
    | ok a => cases bad
    | error e => exact ⟨_, rfl, rfl⟩

theorem Propagates.map {p : Attempt σ α} (propagates : Propagates p) (f : α → β) :
    Propagates (f <$> p) := by
  rw [map_eq_pure_bind]
  exact propagates.bind fun a => .pure _

theorem propagates_lift {p : Program σ α} (never : p.Propagates fun _ => false) :
    Propagates (lift p) := by
  have run : (lift p).run = Except.ok <$> p := rfl
  unfold Propagates
  rw [run]
  exact never.map fun _ => rfl

theorem propagates_context : Propagates (context : Attempt σ Context) :=
  .look fun _ _ => .done rfl

theorem propagates_failWith (kind : ErrorKind) (message : String) :
    Propagates (failWith kind message : Attempt σ α) :=
  .ask trivial (fun _ good => nomatch good) fun _ _ => ⟨.error {}, rfl, rfl⟩

theorem propagates_key (name : String) : Propagates (key name : Attempt σ PropertyKey) :=
  propagates_lift (propagates_act (a := .key name) trivial fun _ => rfl)

end Attempt

open Attempt Program

namespace Ordinary

variable {σ : Type} {s : Shape}

theorem propagates_readThrough (d : Descriptor) (receiver : Value) :
    Propagates (readThrough d receiver : Attempt σ Value) := by
  unfold readThrough
  split
  · split
    · exact propagates_perform (.call _ receiver [])
    · exact .pure _
  · exact .pure _

theorem propagates_writeTo (receiver : ObjectId) (k : PropertyKey) (v : Value) :
    Propagates (writeTo receiver k v : Attempt σ Outcome) := by
  refine .bind (propagates_perform (.getOwnProperty receiver k)) fun existing => ?_
  split
  · split
    · exact .pure _
    · split
      · exact .pure _
      · exact propagates_perform (.defineProperty receiver k (.valueOnly v))
  · exact propagates_perform (.defineProperty receiver k (.ofData v))

theorem propagates_assign (own : Descriptor) (k : PropertyKey) (v receiver : Value) :
    Propagates (assign own k v receiver : Attempt σ Outcome) := by
  unfold assign
  split
  · split
    next f _ =>
      refine Attempt.Propagates.bind (.map ?_ _) fun _ => .pure _
      exact propagates_perform (.call f receiver [v])
    · exact .pure _
  · split
    · exact .pure _
    · split
      · exact .pure _
      · exact propagates_writeTo _ k v

theorem propagates_setWithOwn (o : ObjectId) (k : PropertyKey) (v receiver : Value)
    (own : Option Descriptor) :
    Propagates (setWithOwn o k v receiver own : Attempt σ Outcome) := by
  cases own with
  | some own => exact propagates_assign own k v receiver
  | none =>
    refine .bind (propagates_perform (.getPrototype o)) fun proto => ?_
    cases proto with
    | some p => exact propagates_perform (.set p k v receiver)
    | none => exact propagates_assign _ k v receiver

theorem propagates_visitKeys (o : ObjectId) (ks seen listed : List PropertyKey) :
    (visitKeys o ks seen listed : Program σ _).Propagates fun visit => visit.1.failed := by
  induction ks generalizing seen listed with
  | nil => exact .done rfl
  | cons k ks ih =>
    unfold visitKeys
    split
    · exact ih seen listed
    · refine Program.Propagates.bind (propagates_perform (.getOwnProperty o k))
        (fun d good => ?_) fun d bad => ?_
      · cases d with
        | error e => cases good
        | ok d => exact ih (k :: seen) _
      · cases d with
        | error e => exact ⟨_, rfl, rfl⟩
        | ok d => cases bad

theorem propagates_enumerateFrom (o : ObjectId) (visited : List ObjectId)
    (seen listed : List PropertyKey) :
    (enumerateFrom o visited seen listed : Program σ Listing).Propagates Listing.failed := by
  unfold enumerateFrom
  split
  · exact .done rfl
  · refine Program.Propagates.bind (propagates_perform (.ownKeys o [])) (fun own good => ?_)
      fun own bad => ?_
    · have good : own.failed = false := good
      rw [good, if_neg Bool.false_ne_true]
      refine (propagates_visitKeys o own.keys seen listed).bind (fun (here, seen) good => ?_)
        fun (here, seen) bad => ?_
      · have good : here.failed = false := good
        dsimp only
        rw [good, if_neg Bool.false_ne_true]
        refine Program.Propagates.bind (propagates_perform (.getPrototype o))
          (fun proto done => ?_) fun proto bad => ?_
        · match proto with
          | .error _ => cases done
          | .ok none => exact .done good
          | .ok (some p) => exact propagates_request (r := .enumerateFrom p _ _ _) trivial
        · match proto with
          | .error _ => exact ⟨_, rfl, rfl⟩
          | .ok _ => cases bad
      · exact ⟨here, if_pos bad, bad⟩
    · have bad : own.failed = true := bad
      exact ⟨_, if_pos bad, rfl⟩

theorem propagates_get (o : ObjectId) (receiver : Value) (k : PropertyKey) :
    Propagates (get o receiver k : Attempt σ Value) := by
  refine .bind propagates_context fun c => ?_
  split
  · exact propagates_readThrough _ receiver
  · split
    next p _ => exact propagates_perform (.get p receiver k)
    next => exact .pure _

theorem propagates_set (o : ObjectId) (k : PropertyKey) (v receiver : Value) :
    Propagates (set o k v receiver : Attempt σ Outcome) :=
  .bind propagates_context fun c => propagates_setWithOwn o k v receiver (c.ownDescriptor? o k)

theorem propagates_has (o : ObjectId) (k : PropertyKey) :
    Propagates (has o k : Attempt σ Bool) := by
  refine .bind propagates_context fun c => ?_
  split
  · exact .pure _
  · split
    next p _ => exact propagates_perform (.has p k)
    next => exact .pure _

theorem propagates_call (o : ObjectId) (this : Value) (args : List Value) :
    Propagates (call o this args : Attempt σ Value) := by
  refine .bind propagates_context fun c => ?_
  split
  next code _ _ => exact propagates_request (r := .runFunction code this args) trivial
  next => exact propagates_failWith _ _

theorem propagates_prototypeFor (newTarget : Value) :
    Propagates (prototypeFor newTarget : Attempt σ ObjectId) := by
  unfold prototypeFor
  split
  next t _ =>
    refine .bind (propagates_key _) fun k => Attempt.Propagates.bind ?_ fun _ => .pure _
    exact propagates_perform (.get t newTarget k)
  next => exact .pure _

theorem propagates_construct (o : ObjectId) (args : List Value) (newTarget : Value) :
    Propagates (construct o args newTarget : Attempt σ Value) := by
  refine .bind propagates_context fun c => ?_
  split
  next code _ _ =>
    refine .bind (propagates_prototypeFor newTarget) fun proto => ?_
    refine .bind (propagates_lift (propagates_act (a := .newObject _) trivial fun _ => rfl))
      fun this => Attempt.Propagates.bind ?_ fun _ => .pure _
    exact propagates_request (r := .runFunction code (.object this) args) trivial
  next => exact propagates_failWith _ _

theorem propagates_functionToString (o : ObjectId) :
    Propagates (functionToString o : Attempt σ Value) := by
  refine .bind propagates_context fun c => ?_
  split
  · exact propagates_lift (propagates_act (a := .newString _) trivial fun _ => rfl)
  · exact propagates_failWith _ _

theorem propagates_stored {α : Type} {a : Action} (builtin : a.Builtin)
    (never : ∀ x, (Request.act a).isFailure x = false) (f : a.Response → α) :
    ((fun x => Except.ok (f x)) <$> act a : Program σ (Fallible α)).Propagates
      Fallible.isFailure :=
  (propagates_act builtin never).map fun _ => rfl

theorem propagates_method (op : Op s) :
    (method op : Program σ s.Answer).Propagates s.isFailure := by
  cases op with
  | getOwnProperty o k => exact propagates_reads _ fun _ => rfl
  | defineProperty o k d =>
    exact propagates_stored (a := .defineStored o k d) trivial (fun _ => rfl) id
  | ownKeys o listed => exact propagates_reads _ fun _ => rfl
  | delete o k => exact propagates_stored (a := .deleteStored o k) trivial (fun _ => rfl) id
  | enumerate o listed => exact propagates_request (r := .enumerateFrom o [] [] listed) trivial
  | getPrototypeIfOrdinary o => exact propagates_reads _ fun _ => rfl
  | getPrototype o => exact propagates_reads _ fun _ => rfl
  | setPrototype o p => exact propagates_stored (a := .storePrototype o p) trivial (fun _ => rfl) id
  | setImmutablePrototype o =>
    exact propagates_stored (a := .fixPrototype o) trivial (fun _ => rfl) fun _ => true
  | preventExtensions o =>
    exact propagates_stored (a := .storeExtensible o false) rfl (fun _ => rfl) fun _ => Outcome.ok
  | isExtensible o => exact propagates_reads _ fun _ => rfl
  | has o k => exact propagates_has o k
  | get o receiver k => exact propagates_get o receiver k
  | set o k v receiver => exact propagates_set o k v receiver
  | call o this args => exact propagates_call o this args
  | construct o args newTarget => exact propagates_construct o args newTarget
  | hasOwn o k => exact propagates_reads _ fun _ => rfl
  | ownEnumerableKeys o listed => exact propagates_reads _ fun _ => rfl
  | className o => exact propagates_reads _ fun _ => rfl
  | functionToString o b => exact propagates_functionToString o
  | unbox o => exact propagates_reads _ fun _ => rfl
  | isCallable o => exact propagates_reads _ fun _ => rfl
  | isConstructor o => exact propagates_reads _ fun _ => rfl

end Ordinary

namespace Plain

variable {σ : Type} {s : Shape}

theorem propagates_has (o : ObjectId) (k : PropertyKey) :
    Propagates (has o k : Attempt σ Bool) := by
  refine .bind (propagates_perform (.getOwnProperty o k)) fun own => ?_
  split
  · exact .pure _
  · refine .bind (propagates_perform (.getPrototype o)) fun proto => ?_
    cases proto with
    | some p => exact propagates_perform (.has p k)
    | none => exact .pure _

theorem propagates_get (o : ObjectId) (receiver : Value) (k : PropertyKey) :
    Propagates (get o receiver k : Attempt σ Value) := by
  refine .bind (propagates_perform (.getOwnProperty o k)) fun own => ?_
  cases own with
  | some d => exact Ordinary.propagates_readThrough d receiver
  | none =>
    refine .bind (propagates_perform (.getPrototype o)) fun proto => ?_
    cases proto with
    | some p => exact propagates_perform (.get p receiver k)
    | none => exact .pure _

theorem propagates_set (o : ObjectId) (k : PropertyKey) (v receiver : Value) :
    Propagates (set o k v receiver : Attempt σ Outcome) :=
  .bind (propagates_perform (.getOwnProperty o k)) fun own =>
    Ordinary.propagates_setWithOwn o k v receiver own

theorem propagates_hasOwn (o : ObjectId) (k : PropertyKey) :
    Propagates (hasOwn o k : Attempt σ Bool) :=
  Attempt.Propagates.map (propagates_perform (.getOwnProperty o k)) _

theorem propagates_enumerableAmong (o : ObjectId) (ks listed : List PropertyKey) :
    (enumerableAmong o ks listed : Program σ Listing).Propagates Listing.failed := by
  induction ks generalizing listed with
  | nil => exact .done rfl
  | cons k ks ih =>
    refine Program.Propagates.bind (propagates_perform (.getOwnProperty o k))
      (fun d good => ?_) fun d bad => ?_
    · cases d with
      | error e => cases good
      | ok d => exact ih _
    · cases d with
      | error e => exact ⟨_, rfl, rfl⟩
      | ok d => cases bad

theorem propagates_ownEnumerableKeys (o : ObjectId) (listed : List PropertyKey) :
    (ownEnumerableKeys o listed : Program σ Listing).Propagates Listing.failed := by
  refine Program.Propagates.bind (propagates_perform (.ownKeys o [])) (fun own good => ?_)
    fun own bad => ?_
  · rw [if_neg (by rw [show own.failed = false from good]; exact Bool.false_ne_true)]
    exact propagates_enumerableAmong o own.keys listed
  · exact ⟨_, if_pos bad, rfl⟩

theorem propagates_className (o : ObjectId) :
    (className o : Program σ String).Propagates fun _ => false := by
  refine Program.Propagates.after (propagates_perform (.isCallable o)) fun callable => ?_
  split <;> exact .done rfl

theorem propagates_functionToString (o : ObjectId) :
    Propagates (functionToString o : Attempt σ Value) := by
  refine .bind (propagates_lift (propagates_perform (.isCallable o))) fun callable => ?_
  split
  · exact propagates_lift (propagates_act (a := .newString _) trivial fun _ => rfl)
  · exact propagates_failWith _ _

theorem propagates_method (op : Op s) :
    (method op : Program σ s.Answer).Propagates s.isFailure := by
  cases op with
  | getOwnProperty o k => exact .done rfl
  | defineProperty o k d => exact .done rfl
  | ownKeys o listed => exact .done rfl
  | delete o k => exact .done rfl
  | enumerate o listed => exact propagates_request (r := .enumerateFrom o [] [] listed) trivial
  | getPrototypeIfOrdinary o => exact propagates_reads _ fun _ => rfl
  | getPrototype o => exact propagates_reads _ fun _ => rfl
  | setPrototype o p =>
    exact Ordinary.propagates_stored (a := .storePrototype o p) trivial (fun _ => rfl) id
  | setImmutablePrototype o => exact .done rfl
  | preventExtensions o =>
    exact Ordinary.propagates_stored (a := .storeExtensible o false) rfl (fun _ => rfl)
      fun _ => Outcome.ok
  | isExtensible o => exact propagates_reads _ fun _ => rfl
  | has o k => exact propagates_has o k
  | get o receiver k => exact propagates_get o receiver k
  | set o k v receiver => exact propagates_set o k v receiver
  | call o this args => exact .done rfl
  | construct o args newTarget => exact .done rfl
  | hasOwn o k => exact propagates_hasOwn o k
  | ownEnumerableKeys o listed => exact propagates_ownEnumerableKeys o listed
  | className o => exact propagates_className o
  | functionToString o b => exact propagates_functionToString o
  | unbox o => exact .done rfl
  | isCallable o => exact propagates_reads _ fun _ => rfl
  | isConstructor o => exact propagates_perform (.isCallable o)

end Plain

theorem Wrapper.propagates_method {σ : Type} {s : Shape} (op : Op s) :
    (Wrapper.method op : Program σ s.Answer).Propagates s.isFailure := by
  refine Program.Propagates.after (.look fun c _ => .done rfl) fun c => ?_
  split
  next t _ => exact propagates_perform (op.redirect t)
  next => exact propagates_giveUp s _ _

theorem BaseHandler.propagates_method {σ : Type} {s : Shape} (base : BaseHandler) (op : Op s) :
    (base.method op : Program σ s.Answer).Propagates s.isFailure := by
  cases base with
  | plain => exact Plain.propagates_method op
  | wrapper => exact Wrapper.propagates_method op

theorem Engine.propagates_incapable? {σ : Type} {s : Shape} (op : Op s) :
    (incapable? op : Program σ _).Propagates fun early => early.any s.isFailure := by
  have refused (message : String) : (some <$> giveUp .value .typeError message :
      Program σ _).Propagates fun early => early.any Shape.value.isFailure :=
    (propagates_giveUp .value .typeError message).map fun _ => rfl
  cases op with
  | call o this args =>
    refine Program.Propagates.after (propagates_perform (.isCallable o)) fun able => ?_
    split
    · exact .done rfl
    · exact .look fun c _ => refused _
  | construct o args newTarget =>
    refine Program.Propagates.after (propagates_perform (.isConstructor o)) fun able => ?_
    split
    · exact .done rfl
    · exact .look fun c _ => refused _
  | _ => exact .done rfl

/-! Operations by name and in strict form. -/

namespace Attempt

variable {σ : Type}

theorem propagates_checkStrict (outcome : Outcome) (k : PropertyKey) :
    Propagates (checkStrict outcome k : Attempt σ Unit) := by
  unfold checkStrict
  split
  · exact .pure _
  · exact .bind propagates_context fun _ => propagates_failWith _ _

theorem propagates_checkStrictObject (outcome : Outcome) :
    Propagates (checkStrictObject outcome : Attempt σ Unit) := by
  unfold checkStrictObject
  split
  · exact .pure _
  · exact propagates_failWith _ _

theorem propagates_getProperty (o : ObjectId) (name : String) :
    Propagates (getProperty o name : Attempt σ Value) :=
  .bind (propagates_key name) fun k => propagates_perform (.get o (.object o) k)

theorem propagates_setProperty (o : ObjectId) (name : String) (v : Value) :
    Propagates (setProperty o name v : Attempt σ Unit) :=
  .bind (propagates_key name) fun k =>
    .bind (propagates_perform (.set o k v (.object o))) fun outcome =>
      propagates_checkStrict outcome k

theorem propagates_defineData (o : ObjectId) (name : String) (v : Value) (attrs : Attributes) :
    Propagates (defineData o name v attrs : Attempt σ Unit) :=
  .bind (propagates_key name) fun k =>
    .bind (propagates_perform (.defineProperty o k (.ofData v attrs))) fun outcome =>
      propagates_checkStrict outcome k

end Attempt

end ProxyEngine
