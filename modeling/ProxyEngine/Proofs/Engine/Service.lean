import ProxyEngine.Proofs.Engine.Delivery

/-! What it takes for an operation to end. An operation is served on a machine if it ends
there and leaves what operations of its kind leave. The methods of the built-in handlers
end wherever the operations they ask for are served; so does what is done with a property
that a lookup has found. -/

namespace ProxyEngine

variable {σ : Type} {s : Shape}

namespace Op

variable {F : Foreign σ} {m m' : Machine σ}

/-- What an operation that does not fail leaves behind, as far as it matters to what
comes after it: questions leave everything as it is, and reads and calls make no objects
unless host functions do. -/
def Leaves (F : Foreign σ) (m m' : Machine σ) : Op s → Prop
  | getOwnProperty .. | ownKeys .. | getPrototype _ | isCallable _ | isConstructor _ => m' = m
  | get .. | call .. => F.Abstains → m'.context.heap.slotCount = m.context.heap.slotCount
  | _ => True

theorem leaves_refl (F : Foreign σ) (m : Machine σ) (op : Op s) : op.Leaves F m m := by
  cases op <;> first | trivial | rfl | exact fun _ => rfl

theorem Leaves.shallower {op : Op s} (leaves : op.Leaves F (m.deeper 1) m') :
    op.Leaves F m (m'.shallower 1) := by
  cases op <;> first
    | trivial
    | exact leaves
    | exact (congrArg (Machine.shallower 1) leaves).trans (Machine.shallower_deeper 1 m)

theorem leaves_redirect {t : ObjectId} {op : Op s} :
    (op.redirect t).Leaves F m m' ↔ op.Leaves F m m' := by
  cases op <;> rfl

theorem leaves_normalized {op : Op s} : op.normalized.Leaves F m m' ↔ op.Leaves F m m' := by
  cases op <;> rfl

def Elementary : Op s → Prop
  | has .. | get .. | set .. | construct .. | enumerate .. => False
  | _ => True

def After (F : Foreign σ) (m : Machine σ) (op : Op s) (a : s.Answer) (m' : Machine σ) : Prop :=
  s.isFailure a = false → op.Leaves F m m'

theorem after_redirect {t : ObjectId} {op : Op s} {a : s.Answer}
    (after : (op.redirect t).After F m a m') : op.After F m a m' :=
  fun well => leaves_redirect.1 (after well)

theorem after_normalized {op : Op s} {a : s.Answer} (after : op.normalized.After F m a m') :
    op.After F m a m' :=
  fun well => leaves_normalized.1 (after well)

end Op

namespace Engine

open Context

/-- The operation ends, if there is room for two more objects, and unless it fails, it
leaves what operations of its kind leave. -/
def Served (F : Foreign σ) (m : Machine σ) (op : Op s) : Prop :=
  Delivers (issue F · op) m (F.Crowds 2 m.context) (op.After F m)

def Dispatched (F : Foreign σ) (m : Machine σ) (op : Op s) : Prop :=
  Delivers (fun fuel => dispatch F (answer F fuel) op) m (F.Crowds 2 m.context) (op.After F m)

/-- Every operation ends, and every walk for enumerable keys. -/
structure Serves (F : Foreign σ) (m : Machine σ) : Prop where
  op : ∀ {s : Shape} (op : Op s), Served F m op
  walk : ∀ o visited seen listed, Delivers (answer F · (.enumerateFrom o visited seen listed)) m
    (F.Crowds 2 m.context) fun _ _ => True

variable {F : Foreign σ} {m : Machine σ} {op : Op s}

theorem served_of_unasked (unasked : op.query? = none) (dispatched : Dispatched F m op) :
    Served F m op :=
  dispatched.of_later (j := 0) (k := 1) fun _ => congrFun (issue_unasked unasked) m

def goOn (F : Foreign σ) (answer : Answerer σ) (op : Op s) (able : Bool) : Run σ s.Answer :=
  if able then dispatch F answer op.normalized else refuse op answer

theorem perform_asked {answer : Answerer σ} {q : Op .capability} (asked : op.query? = some q)
    (m : Machine σ) :
    perform F answer op m = ((answer (.perform q) : Run σ Bool) >>= goOn F answer op) m := by
  cases ran : answer (.perform q) m with
  | error why => exact (perform_stopped asked ran).trans (Run.bind_of_error ran).symm
  | ok result =>
    obtain ⟨able, m₁⟩ := result
    refine Eq.trans ?_ (Run.bind_of_ok (f := goOn F answer op) ran).symm
    cases able with
    | true => exact perform_able asked ran
    | false => exact perform_unable asked ran

theorem delivers_gaveUp (m : Machine σ) (op : Op s) (kind : ErrorKind) (message : String) :
    Delivers (run F · (Program.giveUp s kind message)) m (F.Crowds 2 m.context)
      (op.After F m) := by
  refine (delivers_giveUp m s kind message).mono Foreign.crowds_of_full ?_
  rintro _ m' ⟨rfl, unchanged, -⟩ well
  rw [s.isFailure_givenUp] at well
  obtain rfl := unchanged well
  exact op.leaves_refl F m'

theorem served_of_query {q : Op .capability} (asked : op.query? = some q)
    (query : Served F m q) (dispatched : Dispatched F m op.normalized) : Served F m op := by
  have unchanged (able : Bool) (m₁ : Machine σ) (leaves : q.Leaves F m m₁) : m₁ = m := by
    cases q <;> exact leaves
  refine Delivers.of_later (j := 0) (k := 1)
    (query.bind (f := fun fuel => goOn F (answer F fuel) op) fun able m₁ leaves => ?_)
    fun fuel => perform_asked asked m
  obtain rfl := unchanged able m₁ (leaves rfl)
  cases able with
  | true => exact dispatched.imp fun _ _ => Op.after_normalized
  | false =>
    exact (delivers_gaveUp _ op _ _).of_later (j := 0) (k := 0) fun fuel => rfl

theorem served_of_dispatched (query : ∀ q, op.query? = some q → Served F m q)
    (dispatched : Dispatched F m op.normalized) : Served F m op := by
  cases asked : op.query? with
  | none =>
    rw [Op.normalized_of_unasked asked] at dispatched
    exact served_of_unasked asked dispatched
  | some q => exact served_of_query asked (query q asked) dispatched

/-! What is done with a property, given that questions, definitions and calls are served. -/

section

variable (served : ∀ {s : Shape} (op : Op s), op.Elementary → Served F m op)

include served

theorem delivers_readThrough (d : Descriptor) (receiver : Value) :
    Delivers (run F · (Ordinary.readThrough d receiver).run) m (F.Crowds 2 m.context)
      fun a m' => Fallible.isFailure a = false → F.Abstains →
        m'.context.heap.slotCount = m.context.heap.slotCount := by
  unfold Ordinary.readThrough
  cases d.isAccessor with
  | false => exact delivers_done fun _ _ => rfl
  | true =>
    cases d.getter? with
    | none => exact delivers_done fun _ _ => rfl
    | some g => exact delivers_perform (served (.call g receiver []) trivial)

theorem delivers_writeTo (r : ObjectId) (k : PropertyKey) (v : Value) :
    Delivers (run F · (Ordinary.writeTo r k v).run) m (F.Crowds 2 m.context)
      fun _ _ => True := by
  have define (d : Descriptor) : Delivers (run F · (Attempt.defineProperty r k d).run) m
      (F.Crowds 2 m.context) fun _ _ => True :=
    (delivers_perform (served (.defineProperty r k d) trivial)).imp fun _ _ _ => trivial
  unfold Ordinary.writeTo
  refine delivers_question (delivers_perform (served (.getOwnProperty r k) trivial))
    (fun _ => trivial) fun own => ?_
  cases own with
  | none => exact define _
  | some existing =>
    dsimp only
    cases existing.isAccessor with
    | true => exact delivers_done trivial
    | false =>
      cases existing.isWritable with
      | true => exact define _
      | false => exact delivers_done trivial

theorem delivers_assign (own : Descriptor) (k : PropertyKey) (v receiver : Value) :
    Delivers (run F · (Ordinary.assign own k v receiver).run) m (F.Crowds 2 m.context)
      fun _ _ => True := by
  unfold Ordinary.assign
  cases own.isAccessor with
  | true =>
    cases own.setter? with
    | none => exact delivers_done trivial
    | some f =>
      have called := delivers_perform (served (.call f receiver [v]) trivial)
      simp only [if_true, Functor.discard, map_const, Function.comp_apply, bind_map_left]
      exact delivers_attempt called (fun _ _ _ => trivial) fun _ _ _ => delivers_done trivial
  | false =>
    cases own.isWritable with
    | false => exact delivers_done trivial
    | true =>
      cases receiver.asObject? with
      | none => exact delivers_done trivial
      | some r => exact delivers_writeTo served r k v

theorem delivers_found (l : Lookup s) (d : Descriptor) (o : ObjectId) :
    Delivers (run F · (l.found d)) m (F.Crowds 2 m.context) ((l.op o).After F m) := by
  cases l with
  | has k => exact delivers_done fun _ => trivial
  | get receiver k => exact delivers_readThrough served d receiver
  | set k v receiver => exact (delivers_assign served d k v receiver).imp fun _ _ _ _ => trivial

theorem delivers_missed (l : Lookup s) (o : ObjectId) :
    Delivers (run F · l.missed) m (F.Crowds 2 m.context) ((l.op o).After F m) := by
  cases l with
  | has k => exact delivers_done fun _ => trivial
  | get receiver k => exact delivers_done fun _ _ => rfl
  | set k v receiver => exact (delivers_assign served _ k v receiver).imp fun _ _ _ _ => trivial

end

/-! One level deeper. -/

theorem wrapper_astray {answer : Answerer σ} (op : Op s)
    (gone : m.context.target? op.subject = none) : (Wrapper.method op).run answer m =
      (Program.giveUp s .typeError "wrapper has no target object").run answer m := by
  have asked : (Program.context : Program σ Context).run answer = Run.context := rfl
  rw [Wrapper.method, Program.run_bind, asked, Run.bind_context, gone]

theorem delivers_wrapper (serves : Serves F m) (op : Op s) :
    Delivers (run F · (Wrapper.method op)) m (F.Crowds 2 m.context) (op.After F m) := by
  cases next : m.context.target? op.subject with
  | none =>
    exact (delivers_gaveUp _ op .typeError "wrapper has no target object").of_later
      (j := 0) (k := 0) fun fuel => wrapper_astray op next
  | some t =>
    exact ((serves.op (op.redirect t)).imp fun _ _ => Op.after_redirect).of_later
      (j := 0) (k := 0) fun fuel => wrapper_method op next

theorem delivers_onPlain (serves : Serves F m) (l : Lookup s) (o : ObjectId) :
    Delivers (run F · (l.onPlain o)) m (F.Crowds 2 m.context) ((l.op o).After F m) := by
  have failed (m₁ : Machine σ) : (l.op o).After F m s.givenUp m₁ := by
    intro well
    cases l <;> cases well
  unfold Lookup.onPlain
  refine delivers_bind (delivers_perform (serves.op (.getOwnProperty o l.key)))
    fun own m₁ unchanged => ?_
  rcases own with _ | _ | d
  · exact delivers_done (failed m₁)
  · obtain rfl := unchanged rfl
    refine delivers_bind (delivers_perform (serves.op (.getPrototype o))) fun up m₂ unchanged => ?_
    rcases up with _ | _ | p
    · exact delivers_done (failed m₂)
    · obtain rfl := unchanged rfl
      exact delivers_missed (fun op _ => serves.op op) l o
    · obtain rfl := unchanged rfl
      exact (delivers_perform (serves.op (l.op p))).imp fun _ _ after => by cases l <;> exact after
  · obtain rfl := unchanged rfl
    exact delivers_found (fun op _ => serves.op op) l d o

theorem delivers_enumerableAmong (serves : Serves F m) (o : ObjectId)
    (ks listed : List PropertyKey) :
    Delivers (run F · (Plain.enumerableAmong o ks listed)) m (F.Crowds 2 m.context)
      fun _ _ => True := by
  induction ks generalizing listed with
  | nil => exact delivers_done trivial
  | cons k ks ih =>
    unfold Plain.enumerableAmong
    refine delivers_bind (delivers_perform (serves.op (.getOwnProperty o k)))
      fun own m₁ unchanged => ?_
    rcases own with _ | d
    · exact delivers_done trivial
    · obtain rfl := unchanged rfl
      exact ih _

theorem delivers_plain (serves : Serves F m) (op : Op s) :
    Delivers (run F · (Plain.method op)) m (F.Crowds 2 m.context) (op.After F m) := by
  have lookup (l : Lookup s) (o : ObjectId) : Delivers (run F · (Plain.method (l.op o))) m
      (F.Crowds 2 m.context) ((l.op o).After F m) := by
    rw [l.method_plain]
    exact delivers_onPlain serves l o
  cases op with
  | has o k => exact lookup (.has k) o
  | get o receiver k => exact lookup (.get receiver k) o
  | set o k v receiver => exact lookup (.set k v receiver) o
  | enumerate o listed =>
    exact (delivers_ask (serves.walk o [] [] listed)).imp fun _ _ _ _ => trivial
  | hasOwn o k =>
    have own := delivers_perform (serves.op (.getOwnProperty o k))
    show Delivers (run F · (Option.isSome <$> Attempt.getOwnProperty o k).run) m _ _
    rw [ExceptT.run_map]
    exact delivers_map (f := Except.map Option.isSome) (R := (Op.hasOwn o k).After F m) own
      fun _ _ _ _ => trivial
  | ownEnumerableKeys o listed =>
    refine delivers_bind (delivers_perform (serves.op (.ownKeys o []))) fun own m₁ unchanged => ?_
    cases failed : own.failed with
    | true => exact delivers_done fun _ => trivial
    | false =>
      obtain rfl := unchanged failed
      exact (delivers_enumerableAmong serves o own.keys listed).imp fun _ _ _ _ => trivial
  | className o =>
    refine delivers_bind (delivers_perform (serves.op (.isCallable o))) fun able m₁ _ => ?_
    cases able <;> exact delivers_done fun _ => trivial
  | functionToString o b =>
    refine delivers_lift (delivers_perform (serves.op (.isCallable o))) fun able m₁ unchanged => ?_
    obtain rfl := unchanged rfl
    cases able with
    | true =>
      exact delivers_total (a := .newString _) (Update.total_newString _) _ fun _ _ _ => trivial
    | false => exact delivers_gaveUp _ (.functionToString o b) .typeError _
  | isConstructor o => exact delivers_perform (serves.op (.isCallable o))
  | setPrototype o p =>
    exact delivers_total (a := .storePrototype o p) (Update.total_storePrototype o p) _
      fun _ _ _ => trivial
  | preventExtensions o =>
    exact delivers_total (a := .storeExtensible o false) (Update.total_modifyObject o _) _
      fun _ _ _ => trivial
  | getPrototypeIfOrdinary o => exact delivers_reads fun _ => trivial
  | getPrototype o => exact delivers_reads fun _ => rfl
  | isExtensible o => exact delivers_reads fun _ => trivial
  | isCallable o => exact delivers_reads fun _ => rfl
  | _ => exact delivers_done fun _ => by first | trivial | rfl | exact fun _ => rfl

end Engine

end ProxyEngine
