import ProxyEngine.Proofs.Behaviour.Propagation
import ProxyEngine.Proofs.Context.Region

/-! What the built-in methods attend to. Their requests name handles that they were given,
that a response gave them or that they read from an object whose handle they have, so
they stay in every region that holds their operands and is closed; what they read from
the context is the same on contexts that are alike in it. They are done when a request
has failed, and right after they have made an object they run the embedder's code. -/

namespace ProxyEngine

variable {S : ObjectId → Prop} {s : Shape}

namespace Fallible

variable {α : Type}

def handles (f : α → List ObjectId) : Fallible α → List ObjectId
  | .ok a => f a
  | .error _ => []

end Fallible

abbrev Value.handles (v : Value) : List ObjectId :=
  v.asObject?.toList

def Shape.handles : (s : Shape) → s.Answer → List ObjectId
  | .descriptor, (a : Fallible (Option Descriptor)) => a.handles (·.elim [] Descriptor.handles)
  | .outcome, (a : Fallible Outcome) => a.handles fun _ => []
  | .ordinaryPrototype, (a : Fallible OrdinaryPrototype) => a.handles fun
    | .ordinary proto => proto.toList
    | .notOrdinary => []
  | .prototype, (a : Fallible (Option ObjectId)) => a.handles Option.toList
  | .flag, (a : Fallible Bool) => a.handles fun _ => []
  | .value, (a : Fallible Value) => a.handles Value.handles
  | .keys _, _ | .text, _ | .capability, _ => []

theorem Shape.handles_givenUp (s : Shape) : s.handles s.givenUp = [] := by
  cases s <;> rfl

namespace Op

def given : Op s → List ObjectId
  | defineProperty _ _ d => d.handles
  | setPrototype _ proto => proto.toList
  | get _ receiver _ => receiver.handles
  | set _ _ v receiver => v.handles ++ receiver.handles
  | call _ this args => this.handles ++ args.filterMap Value.asObject?
  | construct _ args newTarget => args.filterMap Value.asObject? ++ newTarget.handles
  | _ => []

def handles (op : Op s) : List ObjectId :=
  op.subject :: op.given

/-- The operation names handles of the region only. -/
def Within (S : ObjectId → Prop) (op : Op s) : Prop :=
  ∀ t ∈ op.handles, S t

theorem Within.subject {op : Op s} (within : op.Within S) : S op.subject :=
  within _ (.head _)

theorem Within.given {op : Op s} (within : op.Within S) : ∀ t ∈ op.given, S t :=
  fun t here => within t (.tail _ here)

theorem within_iff {op : Op s} : op.Within S ↔ S op.subject ∧ ∀ t ∈ op.given, S t :=
  List.forall_mem_cons

theorem Within.alone {op : Op s} (bare : op.given = []) (inside : S op.subject) : op.Within S :=
  within_iff.2 ⟨inside, bare ▸ List.forall_mem_nil _⟩

theorem Within.redirect {op : Op s} (within : op.Within S) {t : ObjectId} (inside : S t) :
    (op.redirect t).Within S := by
  refine within_iff.2 ⟨by rwa [subject_redirect], fun p here => ?_⟩
  have given := within.given
  cases op with
  | construct o args newTarget =>
    simp only [Op.redirect, Op.given, List.mem_append, Option.mem_toList] at here given
    obtain here | here := here
    · exact given p (.inl here)
    · split at here
      · rw [Value.asObject?_object, Option.some.injEq] at here
        exact here ▸ inside
      · exact given p (.inr here)
  | _ => exact given p here

theorem Within.normalized {op : Op s} (within : op.Within S) : op.normalized.Within S := by
  cases op with
  | construct o args newTarget =>
    refine within_iff.2 ⟨within.subject, fun p here => ?_⟩
    have given := within.given
    simp only [Op.normalized, Op.given, List.mem_append, Option.mem_toList] at here given
    obtain here | here := here
    · exact given p (.inl here)
    · split at here
      · exact given p (.inr here)
      · rw [Value.asObject?_object, Option.some.injEq] at here
        exact here ▸ within.subject
  | _ => exact within

end Op

def Action.Within (S : ObjectId → Prop) : Action → Prop
  | newString _ | key _ | report .. => True
  | defineStored o _ d => S o ∧ ∀ t ∈ d.handles, S t
  | deleteStored o _ | fixPrototype o | storeExtensible o _ => S o
  | storePrototype o proto => S o ∧ ∀ t ∈ proto.toList, S t
  | _ => False

namespace Request

/-- The request names handles of the region only. What a host function is given does not
matter. -/
def Within (S : ObjectId → Prop) : Request → Prop
  | act a => a.Within S
  | perform op => op.Within S
  | runFunction .. => True
  | enumerateFrom o _ _ _ => S o
  | _ => False

/-- A response names handles of the region only. No host function comes to an end. -/
def Fits (S : ObjectId → Prop) : (r : Request) → r.Response → Prop
  | perform (s := s) _, a => ∀ t ∈ s.handles a, S t
  | act (.newString _), (v : Value) => ∀ t ∈ v.handles, S t
  | runFunction .., _ => False
  | _, _ => True

end Request

namespace Program

variable {σ α β : Type}

/-- The program makes requests within the region, given such responses, and looks at what is
the same on contexts that are alike in it. Failure is as for `Propagates`, and an object
is made only to run a host function on it, whose failure is answered in one way. -/
inductive Attends (S : ObjectId → Prop) (fails : α → Bool) (Q : α → Prop) : Program σ α → Prop
  | done {a : α} : fails a = false → Q a → Attends S fails Q (done a)
  | look {next : Context → σ → Program σ α} :
      (∀ c c' s s', c.Alike S c' → next c' s' = next c s) →
      (∀ c s, c.Closed S → Attends S fails Q (next c s)) → Attends S fails Q (look next)
  | ask {r : Request} {next : r.Response → Program σ α} : r.Within S →
      (∀ x, r.isFailure x = false → r.Fits S x → Attends S fails Q (next x)) →
      (∀ x, r.isFailure x = true → ∃ a, next x = .done a ∧ fails a = true) →
      Attends S fails Q (.ask r next)
  | construct {proto : Option ObjectId} {next : ObjectId → Program σ α} {a : α} :
      fails a = true →
      (∀ e, ∃ code this args, ∃ last : Fallible Value → Program σ α,
        next e = .ask (.runFunction code this args) last ∧
          ∀ x, x.isFailure = true → last x = .done a) →
      Attends S fails Q (.ask (.act (.newObject proto)) next)

variable {fails : α → Bool} {fails' : β → Bool} {Q Q' : α → Prop} {R : β → Prop}

theorem Attends.imp {p : Program σ α} (attends : p.Attends S fails Q)
    (implies : ∀ a, fails a = false → Q a → Q' a) : p.Attends S fails Q' := by
  induction attends with
  | done good fits => exact .done good (implies _ good fits)
  | look same _ ih => exact .look same ih
  | ask within _ ends ih => exact .ask within ih ends
  | construct bad last => exact .construct bad last

theorem Attends.bind {p : Program σ α} {f : α → Program σ β} (first : p.Attends S fails Q)
    (rest : ∀ a, fails a = false → Q a → (f a).Attends S fails' R)
    (ends : ∀ a, fails a = true → ∃ b, f a = .done b ∧ fails' b = true) :
    (p >>= f).Attends S fails' R := by
  induction first with
  | done good fits => exact rest _ good fits
  | look same _ ih =>
    exact .look (fun c c' s s' alike => congrArg (· >>= f) (same c c' s s' alike)) ih
  | ask within _ last ih =>
    refine .ask within ih fun x failed => ?_
    obtain ⟨a, same, bad⟩ := last x failed
    rw [same]
    exact ends a bad
  | construct bad runs =>
    obtain ⟨b, same, bad'⟩ := ends _ bad
    refine .construct bad' fun e => ?_
    obtain ⟨code, this, args, last, next, fixed⟩ := runs e
    refine ⟨code, this, args, fun x => last x >>= f, ?_, fun x failed => ?_⟩
    · rw [next]
      rfl
    · dsimp only
      rw [fixed x failed]
      exact same

theorem Attends.after {p : Program σ α} {f : α → Program σ β}
    (first : p.Attends S (fun _ => false) Q) (rest : ∀ a, Q a → (f a).Attends S fails' R) :
    (p >>= f).Attends S fails' R :=
  first.bind (fun a _ => rest a) fun _ failed => nomatch failed

theorem Attends.map {p : Program σ α} (attends : p.Attends S fails Q) {f : α → β}
    (same : ∀ a, fails' (f a) = fails a) (fits : ∀ a, Q a → R (f a)) :
    (f <$> p).Attends S fails' R := by
  rw [map_eq_pure_bind]
  exact attends.bind (fun a good holds => .done ((same a).trans good) (fits a holds))
    fun a bad => ⟨f a, rfl, (same a).trans bad⟩

theorem attends_request {r : Request} (within : r.Within S) :
    (ask r done : Program σ r.Response).Attends S r.isFailure (r.Fits S) :=
  .ask within (fun _ good fits => .done good fits) fun x bad => ⟨x, rfl, bad⟩

theorem attends_perform (op : Op s) (within : op.Within S) :
    (perform op : Program σ s.Answer).Attends S s.isFailure fun a => ∀ t ∈ s.handles a, S t :=
  attends_request (r := .perform op) within

theorem attends_act {a : Action} (within : a.Within S)
    (never : ∀ x, (Request.act a).isFailure x = false) :
    (act a : Program σ a.Response).Attends S (fun _ => false) ((Request.act a).Fits S) :=
  .ask within (fun _ _ fits => .done rfl fits) fun x failed => nomatch (never x).symm.trans failed

theorem attends_look {k : Context → Program σ α} (same : ∀ c c', c.Alike S c' → k c' = k c)
    (rest : ∀ c, c.Closed S → (k c).Attends S fails Q) : (context >>= k).Attends S fails Q :=
  .look (fun c c' _ _ alike => same c c' alike) fun c _ closed => rest c closed

theorem attends_reads {f : Context → α} (same : ∀ c c', c.Alike S c' → f c' = f c)
    (good : ∀ c, fails (f c) = false) (fits : ∀ c, c.Closed S → Q (f c)) :
    (reads f : Program σ α).Attends S fails Q :=
  .look (fun c c' _ _ alike => congrArg done (same c c' alike))
    fun c _ closed => .done (good c) (fits c closed)

theorem attends_object {o : ObjectId} (f : Option Object → α) (inside : S o)
    (good : ∀ x, fails (f x) = false) (fits : ∀ c : Context, c.Closed S → Q (f (c.get? o))) :
    (reads (fun c => f (c.get? o)) : Program σ α).Attends S fails Q :=
  attends_reads (fun _ _ alike => congrArg f (alike.objects o inside)) (fun c => good (c.get? o))
    fits

theorem attends_listing {f : Context → List PropertyKey} (listed : List PropertyKey)
    (same : ∀ c c', c.Alike S c' → f c' = f c) :
    (reads (fun c => { keys := listed ++ f c }) : Program σ Listing).Attends S Listing.failed
      fun a => ∀ t ∈ (Shape.keys listed).handles a, S t :=
  attends_reads (fun c c' alike => congrArg (fun ks => Listing.mk (listed ++ ks) false)
    (same c c' alike)) (fun _ => rfl) fun _ _ => List.forall_mem_nil _

theorem attends_giveUp (s : Shape) (kind : ErrorKind) (message : String) :
    (giveUp s kind message : Program σ s.Answer).Attends S s.isFailure
      fun a => ∀ t ∈ s.handles a, S t := by
  unfold giveUp
  cases can : s.canFail with
  | true =>
    exact .ask trivial (fun _ good => nomatch good)
      fun _ _ => ⟨s.givenUp, rfl, s.isFailure_givenUp.trans can⟩
  | false =>
    refine .done (s.isFailure_givenUp.trans can) ?_
    rw [s.handles_givenUp]
    exact List.forall_mem_nil _

end Program

namespace Attempt

open Program

variable {σ α β : Type} {f : α → List ObjectId} {g : β → List ObjectId}

/-- The attempt attends to the region, and `f` finds handles of the region in its result. -/
def Attends (S : ObjectId → Prop) (f : α → List ObjectId) (p : Attempt σ α) : Prop :=
  Program.Attends S Fallible.isFailure (fun a => ∀ t ∈ a.handles f, S t) p.run

theorem Attends.pure {a : α} (fits : ∀ t ∈ f a, S t) : Attends S f (pure a : Attempt σ α) :=
  .done rfl fits

theorem Attends.bind {p : Attempt σ α} {k : α → Attempt σ β} (first : Attends S f p)
    (rest : ∀ a, (∀ t ∈ f a, S t) → Attends S g (k a)) : Attends S g (p >>= k) := by
  unfold Attends
  rw [ExceptT.run_bind]
  refine Program.Attends.bind first (fun a good fits => ?_) fun a bad => ?_
  · cases a with
    | ok a => exact rest a fits
    | error e => cases good
  · cases a with
    | ok a => cases bad
    | error e => exact ⟨_, rfl, rfl⟩

theorem Attends.map {p : Attempt σ α} (attends : Attends S f p) {k : α → β}
    (fits : ∀ a, (∀ t ∈ f a, S t) → ∀ t ∈ g (k a), S t) : Attends S g (k <$> p) := by
  rw [map_eq_pure_bind]
  exact attends.bind fun a inside => .pure (fits a inside)

theorem attends_lift {p : Program σ α} {Q : α → Prop} (never : p.Attends S (fun _ => false) Q)
    (fits : ∀ a, Q a → ∀ t ∈ f a, S t) : Attends S f (lift p) := by
  have run : (lift p).run = Except.ok <$> p := rfl
  unfold Attends
  rw [run]
  exact never.map (fun _ => rfl) fits

theorem attends_context {k : Context → Attempt σ β} (same : ∀ c c', c.Alike S c' → k c' = k c)
    (rest : ∀ c, c.Closed S → Attends S g (k c)) : Attends S g (context >>= k) :=
  Program.Attends.look (fun c c' _ _ alike => congrArg ExceptT.run (same c c' alike))
    fun c _ closed => rest c closed

theorem attends_failWith (kind : ErrorKind) (message : String) :
    Attends S f (failWith kind message : Attempt σ α) :=
  .ask trivial (fun _ good => nomatch good) fun _ _ => ⟨.error {}, rfl, rfl⟩

theorem attends_key (name : String) :
    Attends S (fun _ => []) (key name : Attempt σ PropertyKey) :=
  attends_lift (attends_act (a := .key name) trivial fun _ => rfl) fun _ _ => List.forall_mem_nil _

theorem attends_getOwnProperty {o : ObjectId} (inside : S o) (k : PropertyKey) :
    Attends S (·.elim [] Descriptor.handles)
      (Attempt.getOwnProperty o k : Attempt σ (Option Descriptor)) :=
  attends_perform (.getOwnProperty o k) (.alone rfl inside)

theorem attends_getPrototype {o : ObjectId} (inside : S o) :
    Attends S Option.toList (Attempt.getPrototype o : Attempt σ (Option ObjectId)) :=
  attends_perform (.getPrototype o) (.alone rfl inside)

end Attempt

open Attempt Program

namespace Ordinary

variable {σ : Type} {o : ObjectId} {k : PropertyKey} {v receiver : Value}

theorem attends_readThrough {d : Descriptor} (inside : ∀ t ∈ d.handles, S t)
    (inside' : ∀ t ∈ receiver.handles, S t) :
    Attends S Value.handles (readThrough d receiver : Attempt σ Value) := by
  unfold readThrough
  split
  · split
    next g getter =>
      refine attends_perform (.call g receiver []) (Op.within_iff.2 ⟨inside g ?_, ?_⟩)
      · simp [Descriptor.handles, getter]
      · simpa [Op.given] using inside'
    next => exact .pure (List.forall_mem_nil _)
  · refine .pure fun t here => inside t ?_
    simp only [Descriptor.handles, List.mem_append]
    exact .inl (.inl here)

theorem attends_writeTo (inside : S o) (inside' : ∀ t ∈ v.handles, S t) :
    Attends S (fun _ => []) (writeTo o k v : Attempt σ Outcome) := by
  have defines {d : Descriptor} (given : ∀ t ∈ d.handles, S t) :
      Attends S (fun _ => []) (Attempt.defineProperty o k d : Attempt σ Outcome) :=
    attends_perform (.defineProperty o k d) (Op.within_iff.2 ⟨inside, given⟩)
  have refuses (outcome : Outcome) : Attends S (fun _ => []) (pure outcome : Attempt σ Outcome) :=
    .pure (List.forall_mem_nil _)
  refine (attends_getOwnProperty inside k).bind fun existing _ => ?_
  split
  · split
    · exact refuses _
    · split
      · exact refuses _
      · refine defines fun t here => inside' t ?_
        simpa [Descriptor.handles, Descriptor.valueOnly, Descriptor.valueOrUndefined,
          Descriptor.getter?, Descriptor.setter?] using here
  · refine defines fun t here => inside' t ?_
    exact Option.mem_toList.2 (Descriptor.mem_handles_ofData.1 here)

theorem attends_assign {own : Descriptor} (inside : ∀ t ∈ own.handles, S t)
    (value : ∀ t ∈ v.handles, S t) (target : ∀ t ∈ receiver.handles, S t) :
    Attends S (fun _ => []) (assign own k v receiver : Attempt σ Outcome) := by
  have refuses (outcome : Outcome) : Attends S (fun _ => []) (pure outcome : Attempt σ Outcome) :=
    .pure (List.forall_mem_nil _)
  unfold assign
  split
  · split
    next f setter =>
      have called : (Op.call f receiver [v]).Within S := by
        refine Op.within_iff.2 ⟨inside f ?_, fun t here => ?_⟩
        · simp [Descriptor.handles, setter]
        · simp only [Op.given, List.mem_append] at here
          obtain here | here := here
          · exact target t here
          · refine value t (Option.mem_toList.2 ?_)
            simpa using here
      refine Attempt.Attends.bind (f := fun _ => []) ?_ fun _ _ => refuses _
      exact Attempt.Attends.map (attends_perform _ called) fun _ _ => List.forall_mem_nil _
    next => exact refuses _
  · split
    · exact refuses _
    · split
      next => exact refuses _
      next r object => exact attends_writeTo (target r (Option.mem_toList.2 object)) value

theorem attends_setWithOwn {own : Option Descriptor} (inside : S o)
    (inside' : ∀ d, own = some d → ∀ t ∈ d.handles, S t)
    (value : ∀ t ∈ v.handles, S t) (target : ∀ t ∈ receiver.handles, S t) :
    Attends S (fun _ => []) (setWithOwn o k v receiver own : Attempt σ Outcome) := by
  cases own with
  | some own => exact attends_assign (inside' own rfl) value target
  | none =>
    refine (attends_getPrototype inside).bind fun proto found => ?_
    cases proto with
    | some p =>
      refine attends_perform (.set p k v receiver) (Op.within_iff.2
        ⟨found p (Option.mem_toList.2 rfl), fun t here => ?_⟩)
      exact (List.mem_append.1 here).elim (value t) (target t)
    | none => exact attends_assign (List.forall_mem_nil _) value target

theorem attends_visitKeys (inside : S o) (ks seen listed : List PropertyKey) :
    (visitKeys o ks seen listed : Program σ _).Attends S (fun visit => visit.1.failed)
      fun _ => True := by
  induction ks generalizing seen listed with
  | nil => exact .done rfl trivial
  | cons k ks ih =>
    unfold visitKeys
    split
    · exact ih seen listed
    · refine Program.Attends.bind (attends_getOwnProperty inside k) (fun d good _ => ?_)
        fun d bad => ?_
      · cases d with
        | error e => cases good
        | ok d => exact ih (k :: seen) _
      · cases d with
        | error e => exact ⟨_, rfl, rfl⟩
        | ok d => cases bad

theorem attends_enumerateFrom (inside : S o) (visited : List ObjectId)
    (seen listed : List PropertyKey) :
    (enumerateFrom o visited seen listed : Program σ Listing).Attends S Listing.failed
      fun _ => True := by
  unfold enumerateFrom
  split
  · exact .done rfl trivial
  · refine Program.Attends.bind (attends_perform (.ownKeys o [])
      (.alone rfl inside)) (fun own good _ => ?_) fun own bad => ?_
    · have good : own.failed = false := good
      rw [good, if_neg Bool.false_ne_true]
      refine (attends_visitKeys inside own.keys seen listed).bind (fun visit good _ => ?_)
        fun visit bad => ⟨visit.1, if_pos bad, bad⟩
      have good : visit.1.failed = false := good
      dsimp only
      rw [good, if_neg Bool.false_ne_true]
      refine Program.Attends.bind (attends_getPrototype inside) (fun proto done found => ?_)
        fun proto bad => ?_
      · cases proto with
        | error _ => cases done
        | ok proto =>
          cases proto with
          | none => exact .done good trivial
          | some p =>
            have next : S p := found p (Option.mem_toList.2 rfl)
            exact (attends_request (r := .enumerateFrom p _ _ _) next).imp fun _ _ _ => trivial
      · cases proto with
        | error _ => exact ⟨_, rfl, rfl⟩
        | ok _ => cases bad
    · have bad : own.failed = true := bad
      exact ⟨_, if_pos bad, rfl⟩

theorem attends_get (inside : S o) (target : ∀ t ∈ receiver.handles, S t) :
    Attends S Value.handles (get o receiver k : Attempt σ Value) := by
  refine attends_context (fun c c' alike => ?_) fun c closed => ?_
  · rw [alike.ownDescriptor? inside, alike.storedPrototype inside]
  · split
    next d own => exact attends_readThrough (closed.ownDescriptor? inside own) target
    next =>
      split
      next p proto =>
        exact attends_perform (.get p receiver k)
          (Op.within_iff.2 ⟨closed.storedPrototype inside proto, target⟩)
      next => exact .pure (List.forall_mem_nil _)

theorem attends_set (inside : S o) (value : ∀ t ∈ v.handles, S t)
    (target : ∀ t ∈ receiver.handles, S t) :
    Attends S (fun _ => []) (set o k v receiver : Attempt σ Outcome) := by
  refine attends_context (fun c c' alike => ?_) fun c closed => ?_
  · rw [alike.ownDescriptor? inside]
  · exact attends_setWithOwn inside (fun d own => closed.ownDescriptor? inside own) value target

theorem attends_has (inside : S o) :
    Attends S (fun _ => []) (has o k : Attempt σ Bool) := by
  refine attends_context (fun c c' alike => ?_) fun c closed => ?_
  · rw [alike.ownDescriptor? inside, alike.storedPrototype inside]
  · split
    · exact .pure (List.forall_mem_nil _)
    · split
      next p proto =>
        exact attends_perform (.has p k)
          (.alone rfl (closed.storedPrototype inside proto))
      next => exact .pure (List.forall_mem_nil _)

theorem attends_call (inside : S o) (this : Value) (args : List Value) :
    Attends S Value.handles (call o this args : Attempt σ Value) := by
  refine attends_context (fun c c' alike => ?_) fun c closed => ?_
  · rw [alike.function? inside]
  · split
    next code _ _ =>
      exact (attends_request (r := .runFunction code this args) trivial).imp
        fun _ _ ended => ended.elim
    next => exact attends_failWith _ _

theorem attends_prototypeFor {newTarget : Value} (target : ∀ t ∈ newTarget.handles, S t) :
    Attends S (fun _ => []) (prototypeFor newTarget : Attempt σ ObjectId) := by
  unfold prototypeFor
  split
  next t object =>
    refine (attends_key _).bind fun k _ => Attempt.Attends.bind (f := Value.handles) ?_
      fun _ _ => .pure (List.forall_mem_nil _)
    exact attends_perform (.get t newTarget k)
      (Op.within_iff.2 ⟨target t (Option.mem_toList.2 object), target⟩)
  next => exact .pure (List.forall_mem_nil _)

theorem attends_construct (inside : S o) (args : List Value) {newTarget : Value}
    (target : ∀ t ∈ newTarget.handles, S t) :
    Attends S Value.handles (construct o args newTarget : Attempt σ Value) := by
  refine attends_context (fun c c' alike => ?_) fun c closed => ?_
  · rw [alike.function? inside]
  · split
    next code _ _ =>
      refine (attends_prototypeFor target).bind fun proto _ => ?_
      refine Program.Attends.construct (a := .error {}) rfl
        fun e => ⟨code, .object e, args, _, rfl, fun x failed => ?_⟩
      cases x with
      | ok v => cases failed
      | error e => rfl
    next => exact attends_failWith _ _

theorem attends_functionToString (inside : S o) :
    Attends S Value.handles (functionToString o : Attempt σ Value) := by
  refine attends_context (fun c c' alike => ?_) fun c closed => ?_
  · have atoms : c'.atoms = c.atoms := by rw [alike.rest]
    simp only [Context.atomText, alike.function? inside, atoms]
  · split
    · exact attends_lift (attends_act (a := .newString _) trivial fun _ => rfl) fun _ => id
    · exact attends_failWith _ _

theorem attends_stored {α : Type} {a : Action} (within : a.Within S)
    (never : ∀ x, (Request.act a).isFailure x = false) (f : a.Response → α) :
    ((fun x => Except.ok (f x)) <$> act a : Program σ (Fallible α)).Attends S
      Fallible.isFailure fun a => ∀ t ∈ a.handles fun _ => [], S t :=
  (attends_act within never).map (fun _ => rfl) fun _ _ => List.forall_mem_nil _

theorem attends_method {op : Op s} (within : op.Within S) :
    (method op : Program σ s.Answer).Attends S s.isFailure fun a => ∀ t ∈ s.handles a, S t := by
  have inside := within.subject
  have given := within.given
  cases op with
  | getOwnProperty o k =>
    refine attends_reads (fun c c' alike => congrArg Except.ok (alike.ownDescriptor? inside k))
      (fun _ => rfl) fun c closed t here => ?_
    cases own : c.ownDescriptor? o k with
    | none =>
      rw [own] at here
      cases here
    | some d =>
      rw [own] at here
      exact closed.ownDescriptor? inside own t here
  | defineProperty o k d =>
    exact attends_stored (a := .defineStored o k d) ⟨inside, given⟩ (fun _ => rfl) id
  | ownKeys o listed =>
    exact attends_listing listed fun c c' alike => alike.ownKeys inside
  | delete o k => exact attends_stored (a := .deleteStored o k) inside (fun _ => rfl) id
  | enumerate o listed =>
    exact (attends_request (r := .enumerateFrom o [] [] listed) inside).imp
      fun _ _ _ => List.forall_mem_nil _
  | getPrototypeIfOrdinary o =>
    exact attends_reads
      (fun c c' alike => congrArg (fun proto => Except.ok (OrdinaryPrototype.ordinary proto))
        (alike.storedPrototype inside))
      (fun _ => rfl) fun c closed t here => closed.storedPrototype inside (Option.mem_toList.1 here)
  | getPrototype o =>
    exact attends_object (fun x => Except.ok (x.bind Object.prototype)) inside
      (fun _ => rfl) fun c closed t here => closed.storedPrototype inside (Option.mem_toList.1 here)
  | setPrototype o p =>
    exact attends_stored (a := .storePrototype o p) ⟨inside, given⟩ (fun _ => rfl) id
  | setImmutablePrototype o =>
    exact attends_stored (a := .fixPrototype o) inside (fun _ => rfl) fun _ => true
  | preventExtensions o =>
    exact attends_stored (a := .storeExtensible o false) inside (fun _ => rfl) fun _ => Outcome.ok
  | isExtensible o =>
    exact attends_object (fun x => Except.ok (x.any Object.extensible)) inside (fun _ => rfl)
      fun _ _ => List.forall_mem_nil _
  | has o k => exact attends_has inside
  | get o receiver k => exact attends_get inside given
  | set o k v receiver =>
    exact attends_set inside (fun t here => given t (List.mem_append_left _ here))
      fun t here => given t (List.mem_append_right _ here)
  | call o this args => exact attends_call inside this args
  | construct o args newTarget =>
    exact attends_construct inside args fun t here => given t (List.mem_append_right _ here)
  | hasOwn o k =>
    exact attends_reads
      (fun c c' alike => congrArg (Except.ok ·.isSome) (alike.ownDescriptor? inside k))
      (fun _ => rfl) fun _ _ => List.forall_mem_nil _
  | ownEnumerableKeys o listed =>
    exact attends_listing listed fun c c' alike => alike.ownEnumerableKeys inside
  | className o =>
    exact attends_object (fun x => (x.map Object.className).getD "Object") inside (fun _ => rfl)
      fun _ _ => List.forall_mem_nil _
  | functionToString o b => exact attends_functionToString inside
  | unbox o =>
    exact attends_reads (fun c c' alike => congrArg Except.ok (alike.boxedValue inside))
      (fun _ => rfl) fun c closed t here => closed.boxedValue inside (Option.mem_toList.1 here)
  | isCallable o =>
    exact attends_reads (fun c c' alike => congrArg Option.isSome (alike.function? inside))
      (fun _ => rfl) fun _ _ => List.forall_mem_nil _
  | isConstructor o =>
    exact attends_reads (fun c c' alike => congrArg (Option.any (·.2.2)) (alike.function? inside))
      (fun _ => rfl) fun _ _ => List.forall_mem_nil _

end Ordinary

namespace Plain

variable {σ : Type} {o : ObjectId} {k : PropertyKey} {v receiver : Value}

theorem attends_has (inside : S o) :
    Attends S (fun _ => []) (has o k : Attempt σ Bool) := by
  refine (attends_getOwnProperty inside k).bind fun own _ => ?_
  split
  · exact .pure (List.forall_mem_nil _)
  · refine (attends_getPrototype inside).bind fun proto found => ?_
    cases proto with
    | some p =>
      exact attends_perform (.has p k)
        (.alone rfl (found p (Option.mem_toList.2 rfl)))
    | none => exact .pure (List.forall_mem_nil _)

theorem attends_get (inside : S o) (target : ∀ t ∈ receiver.handles, S t) :
    Attends S Value.handles (get o receiver k : Attempt σ Value) := by
  refine (attends_getOwnProperty inside k).bind fun own here => ?_
  cases own with
  | some d => exact Ordinary.attends_readThrough here target
  | none =>
    refine (attends_getPrototype inside).bind fun proto found => ?_
    cases proto with
    | some p =>
      exact attends_perform (.get p receiver k)
        (Op.within_iff.2 ⟨found p (Option.mem_toList.2 rfl), target⟩)
    | none => exact .pure (List.forall_mem_nil _)

theorem attends_set (inside : S o) (value : ∀ t ∈ v.handles, S t)
    (target : ∀ t ∈ receiver.handles, S t) :
    Attends S (fun _ => []) (set o k v receiver : Attempt σ Outcome) := by
  refine (attends_getOwnProperty inside k).bind fun own here => ?_
  refine Ordinary.attends_setWithOwn inside ?_ value target
  rintro d rfl
  exact here

theorem attends_hasOwn (inside : S o) :
    Attends S (fun _ => []) (hasOwn o k : Attempt σ Bool) :=
  (attends_getOwnProperty inside k).map fun _ _ => List.forall_mem_nil _

theorem attends_enumerableAmong (inside : S o) (ks listed : List PropertyKey) :
    (enumerableAmong o ks listed : Program σ Listing).Attends S Listing.failed
      fun _ => True := by
  induction ks generalizing listed with
  | nil => exact .done rfl trivial
  | cons k ks ih =>
    refine Program.Attends.bind (attends_getOwnProperty inside k)
      (fun d good _ => ?_) fun d bad => ?_
    · cases d with
      | error e => cases good
      | ok d => exact ih _
    · cases d with
      | error e => exact ⟨_, rfl, rfl⟩
      | ok d => cases bad

theorem attends_ownEnumerableKeys (inside : S o) (listed : List PropertyKey) :
    (ownEnumerableKeys o listed : Program σ Listing).Attends S Listing.failed
      fun _ => True := by
  refine Program.Attends.bind (attends_perform (.ownKeys o [])
    (.alone rfl inside)) (fun own good _ => ?_) fun own bad => ?_
  · rw [if_neg (by rw [show own.failed = false from good]; exact Bool.false_ne_true)]
    exact attends_enumerableAmong inside own.keys listed
  · exact ⟨_, if_pos bad, rfl⟩

theorem attends_isCallable (inside : S o) :
    (isCallable o : Program σ Bool).Attends S (fun _ => false) fun _ => True :=
  (attends_perform (.isCallable o) (.alone rfl inside)).imp
    fun _ _ _ => trivial

theorem attends_className (inside : S o) :
    (className o : Program σ String).Attends S (fun _ => false) fun _ => True := by
  refine (attends_isCallable inside).after fun callable _ => ?_
  split <;> exact .done rfl trivial

theorem attends_functionToString (inside : S o) :
    Attends S Value.handles (functionToString o : Attempt σ Value) := by
  refine Attempt.Attends.bind (f := fun _ => [])
    (attends_lift (attends_isCallable inside) fun _ _ => List.forall_mem_nil _) fun callable _ => ?_
  split
  · exact attends_lift (attends_act (a := .newString _) trivial fun _ => rfl) fun _ => id
  · exact attends_failWith _ _

theorem attends_method {op : Op s} (within : op.Within S) :
    (method op : Program σ s.Answer).Attends S s.isFailure fun a => ∀ t ∈ s.handles a, S t := by
  have inside := within.subject
  have given := within.given
  cases op with
  | getOwnProperty o k => exact .done rfl (List.forall_mem_nil _)
  | defineProperty o k d => exact .done rfl (List.forall_mem_nil _)
  | ownKeys o listed => exact .done rfl (List.forall_mem_nil _)
  | delete o k => exact .done rfl (List.forall_mem_nil _)
  | enumerate o listed =>
    exact (attends_request (r := .enumerateFrom o [] [] listed) inside).imp
      fun _ _ _ => List.forall_mem_nil _
  | getPrototypeIfOrdinary o =>
    refine attends_reads (fun c c' alike => congrArg Except.ok (alike.storedProxyPrototype inside))
      (fun _ => rfl) fun c closed t here => ?_
    unfold Context.storedProxyPrototype at here
    split at here
    · cases here
    · exact closed.storedPrototype inside (Option.mem_toList.1 here)
  | getPrototype o =>
    exact attends_object (fun x => Except.ok (x.bind Object.prototype)) inside
      (fun _ => rfl) fun c closed t here => closed.storedPrototype inside (Option.mem_toList.1 here)
  | setPrototype o p =>
    exact Ordinary.attends_stored (a := .storePrototype o p) ⟨inside, given⟩ (fun _ => rfl) id
  | setImmutablePrototype o => exact .done rfl (List.forall_mem_nil _)
  | preventExtensions o =>
    exact Ordinary.attends_stored (a := .storeExtensible o false) inside (fun _ => rfl)
      fun _ => Outcome.ok
  | isExtensible o =>
    exact attends_object (fun x => Except.ok (x.any Object.extensible)) inside (fun _ => rfl)
      fun _ _ => List.forall_mem_nil _
  | has o k => exact attends_has inside
  | get o receiver k => exact attends_get inside given
  | set o k v receiver =>
    exact attends_set inside (fun t here => given t (List.mem_append_left _ here))
      fun t here => given t (List.mem_append_right _ here)
  | call o this args => exact .done rfl (List.forall_mem_nil _)
  | construct o args newTarget => exact .done rfl (List.forall_mem_nil _)
  | hasOwn o k => exact attends_hasOwn inside
  | ownEnumerableKeys o listed =>
    exact (attends_ownEnumerableKeys inside listed).imp fun _ _ _ => List.forall_mem_nil _
  | className o => exact (attends_className inside).imp fun _ _ _ => List.forall_mem_nil _
  | functionToString o b => exact attends_functionToString inside
  | unbox o => exact .done rfl (List.forall_mem_nil _)
  | isCallable o =>
    exact attends_object (fun x => (x.bind Object.proxy?).any ProxyState.callable) inside
      (fun _ => rfl) fun _ _ => List.forall_mem_nil _
  | isConstructor o =>
    exact attends_perform (.isCallable o) (.alone rfl inside)

end Plain

theorem Wrapper.attends_method {σ : Type} {op : Op s} (within : op.Within S) :
    (Wrapper.method op : Program σ s.Answer).Attends S s.isFailure
      fun a => ∀ t ∈ s.handles a, S t := by
  have inside := within.subject
  refine attends_look (fun c c' alike => ?_) fun c closed => ?_
  · rw [alike.target? inside]
  · split
    next t target => exact attends_perform _ (within.redirect (closed.target? inside target))
    next => exact attends_giveUp s _ _

theorem BaseHandler.attends_method {σ : Type} {op : Op s} (base : BaseHandler)
    (within : op.Within S) : (base.method op : Program σ s.Answer).Attends S s.isFailure
      fun a => ∀ t ∈ s.handles a, S t := by
  cases base with
  | plain => exact Plain.attends_method within
  | wrapper => exact Wrapper.attends_method within

end ProxyEngine
