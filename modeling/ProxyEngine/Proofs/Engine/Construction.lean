import ProxyEngine.Proofs.Collector.Dangling
import ProxyEngine.Proofs.Context.Primitives
import ProxyEngine.Proofs.Object.Lineage

/-! Objects under construction. A constructor's body runs on an object that was made for it,
and that object is what a construct answers unless the body has one of its own. While the
body runs nothing but the body knows the object: it is no root, so a collection that does
not find it along stored handles frees it, and then a dead handle is answered. Apart from
such collections it stays alive, with the prototype it was made with. -/

namespace ProxyEngine

variable {σ α β : Type}

/-! Prototypes. -/

namespace Context

variable {o : ObjectId}

/-- A handle that was handed out stays so, and its object, should it be alive later on, has
the prototype it has now. -/
def Inherits (o : ObjectId) (c c' : Context) : Prop :=
  c.heap.Valid → c.heap.Issued o → c'.heap.Valid ∧ c'.heap.Issued o ∧
    ∀ y, c'.get? o = some y → ∃ x, c.get? o = some x ∧ y.prototype = x.prototype

instance : Std.Refl (Inherits o) :=
  ⟨fun _ valid issued => ⟨valid, issued, fun y here => ⟨y, here, rfl⟩⟩⟩

instance : IsTrans Context (Inherits o) := ⟨fun c c' c'' first second valid issued => by
  obtain ⟨valid', issued', before⟩ := first valid issued
  obtain ⟨valid'', issued'', later⟩ := second valid' issued'
  refine ⟨valid'', issued'', fun z here => ?_⟩
  obtain ⟨y, middle, same⟩ := later z here
  obtain ⟨x, found, same'⟩ := before y middle
  exact ⟨x, found, same.trans same'⟩⟩

end Context

namespace Update

open Context

variable {o : ObjectId}

theorem inherits_modifyObject (p : ObjectId) {f : Object → Object}
    (same : p = o → ∀ x, (f x).prototype = x.prototype) :
    Relates (Inherits o) (modifyObject p f) := by
  rintro c _ _ ⟨⟩ valid issued
  refine ⟨valid.modify p f, (Heap.issued_modify c.heap f).2 issued, fun y here => ?_⟩
  have here : (c.heap.modify p f).get? o = some y := here
  rw [Heap.get?_modify] at here
  split at here
  next at_p =>
    obtain ⟨x, found, rfl⟩ := Option.map_eq_some_iff.1 here
    exact ⟨x, by rw [get?, at_p]; exact found, same at_p.symm x⟩
  next => exact ⟨y, here, rfl⟩

theorem primitives_inherits : Primitives (Inherits o) (fun _ => True) fun _ => True where
  alloc {x} _ c e c' ran valid issued := by
    obtain ⟨⟨e, heap⟩, stored, ⟨⟩⟩ := Option.map_eq_some_iff.1 ran
    refine ⟨valid.alloc stored, (valid.issued_alloc stored).2 (.inr issued), fun y here => ?_⟩
    have other : o ≠ e := fun same => valid.not_issued_alloc stored (same ▸ issued)
    rw [get?, valid.get?_alloc stored, if_neg other] at here
    exact ⟨y, here, rfl⟩
  intern {s} _ := by
    rintro c _ _ ⟨⟩
    exact Std.Refl.refl (r := Inherits o) c
  touch p f touch := inherits_modifyObject p fun _ => touch.prototype
  rest {f} heap _ := by
    rintro c _ _ ⟨⟩ valid issued
    refine ⟨(heap c).symm ▸ valid, (heap c).symm ▸ issued, fun y here => ⟨y, ?_, rfl⟩⟩
    rwa [get?, heap c] at here

end Update

theorem Action.inherits {a : Action} {o : ObjectId}
    (other : ∀ proto, a ≠ .storePrototype o proto) : a.update.Relates (Context.Inherits o) :=
  a.relates Update.primitives_inherits (fun _ _ => trivial) (fun _ _ => trivial)
    (fun _ _ => trivial) fun p proto same =>
      Update.inherits_modifyObject p fun at_p => absurd (at_p ▸ same) (other proto)

/-! What the past says about an object. -/

namespace History

open Collector

variable {t t' : History} {o : ObjectId}

/-- Every collection that was asked for could find the object along stored handles. -/
def Sustains (o : ObjectId) (t : History) : Prop :=
  ∀ μ ∈ t, μ.event = .asked .collect → Reached μ.context [] o

def Retains (o : ObjectId) (t : History) : Prop :=
  ∀ μ ∈ t, ∀ proto, μ.event ≠ .asked (.act (.storePrototype o proto))

theorem Sustains.left (holds : Sustains o (t ++ t')) : Sustains o t :=
  fun μ here => holds μ (List.mem_append_left _ here)

theorem Retains.left (holds : Retains o (t ++ t')) : Retains o t :=
  fun μ here => holds μ (List.mem_append_left _ here)

@[simp] theorem sustains_flat : t.flat.Sustains o ↔ t.Sustains o := by
  simp [Sustains, mem_flat]

@[simp] theorem retains_flat : t.flat.Retains o ↔ t.Retains o := by
  simp [Retains, mem_flat]

end History

namespace Engine

open Collector History

structure Thrives (o proto : ObjectId) (past : History) (c : Context) : Prop where
  valid : c.heap.Valid
  issued : c.heap.Issued o
  live : past.Sustains o → c.isLive o
  prototype : past.Retains o → ∀ x, c.get? o = some x → x.prototype = some proto

variable {F : Foreign σ} {o proto : ObjectId} {past : History} {c c' : Context}

theorem Thrives.moment (thrives : Thrives o proto past c) (e : Event) :
    Thrives o proto (past.then c e) c where
  valid := thrives.valid
  issued := thrives.issued
  live sustains := thrives.live sustains.left
  prototype retains := thrives.prototype retains.left

theorem Thrives.act (thrives : Thrives o proto past c) {a : Action} {x : a.Response}
    (ran : a.update c = some (x, c')) : Thrives o proto (past.then c (.asked (.act a))) c' where
  valid := ((a.edits ran).reaches.ages thrives.valid).heap.valid
  issued := ((a.edits ran).reaches.ages thrives.valid).heap.issued o thrives.issued
  live sustains := (a.edits ran).live thrives.valid (thrives.live sustains.left)
  prototype retains y here := by
    have other (proto : Option ObjectId) : a ≠ .storePrototype o proto := fun same =>
      retains _ (List.mem_append_right _ (.head _)) proto (same ▸ rfl)
    obtain ⟨-, -, inherits⟩ := Action.inherits other ran thrives.valid thrives.issued
    obtain ⟨x, found, same⟩ := inherits y here
    exact same.trans (thrives.prototype retains.left x found)

theorem Thrives.sweep (thrives : Thrives o proto past c) {dead : List ObjectId}
    (spared : past.Sustains o → o ∉ dead) (marked n : Nat) :
    Thrives o proto past ((c.releaseAll dead).2.recordCollection marked n) where
  valid := (Context.releaseAll_ages thrives.valid dead).reset.valid
  issued := (Context.releaseAll_ages thrives.valid dead).reset.issued o thrives.issued
  live sustains := by
    rw [Context.isLive, Heap.isLive, ← Context.get?, get?_swept, if_neg (spared sustains)]
    exact thrives.live sustains
  prototype retains x here := by
    rw [get?_swept] at here
    split at here
    · cases here
    · exact thrives.prototype retains x here

theorem upholds_thrives (F : Foreign σ) (o proto : ObjectId) :
    Upholds F (Thrives o proto) fun _ => True where
  told _ _ _ := trivial
  asked _ _ _ := trivial
  moment _ _ _ thrives := thrives.moment _
  act _ _ ran thrives := thrives.act ran
  depth _ _ _ _ thrives := ⟨thrives.valid, thrives.issued, thrives.live, thrives.prototype⟩
  collect m finalizers := by
    refine keeps_collect (fun _ _ _ => trivial) (fun _ _ thrives => thrives.moment _)
      (fun state _ _ _ began asked thrives => ?_) finalizers m
    -- Whatever the finalizers did, what is freed was settled when the collection was asked for.
    exact thrives.sweep
      (fun sustains => not_unmarked_of_reached began.valid state (sustains _ asked rfl)) _ _

/-! Constructing. -/

theorem attempt_bind_eq_ok {answer : Answerer σ} {p : Attempt σ α} {f : α → Attempt σ β}
    {m m' : Machine σ} {b : β} (ran : (p >>= f).run.run answer m = .ok (.ok b, m')) :
    ∃ a m₁, p.run.run answer m = .ok (.ok a, m₁) ∧
      (f a).run.run answer m₁ = .ok (.ok b, m') := by
  rw [ExceptT.run_bind, Program.run_bind] at ran
  obtain ⟨answered, m₁, first, rest⟩ := Run.bind_eq_ok.1 ran
  cases answered with
  | ok a => exact ⟨a, m₁, first, rest⟩
  | error e => cases rest

theorem attempt_act_eq_ok {fuel : Nat} {a : Action} {x : a.Response} {m m' : Machine σ}
    (ran : (Attempt.act a).run.run (answer F (fuel + 1)) m = .ok (.ok x, m')) :
    a.update m.context = some (x, m'.context) ∧ m'.state = m.state := by
  obtain ⟨y, m₁, answered, ⟨⟩⟩ := Run.bind_eq_ok.1 ran
  obtain ⟨c, updated, rfl⟩ := Run.update_eq_ok.1 answered
  exact ⟨updated, rfl⟩

/-- What a construct does before the body runs. It asks the new target for `prototype`,
which leads from `m` to `before`, and makes an object that inherits from what it was given,
or from the prototype of all objects. -/
structure Begins (F : Foreign σ) (fuel : Nat) (newTarget : Value) (m before : Machine σ)
    (proto this : ObjectId) (start : Machine σ) : Prop where
  asked : ∀ t, newTarget.asObject? = some t → ∃ k c w,
    Update.key "prototype" m.context = some (k, c) ∧
    issue F fuel (.get t newTarget k) { m with context := c } = .ok (.ok w, before) ∧
    proto = w.asObject?.getD Context.objectPrototype
  unasked : newTarget.asObject? = none → before = m ∧ proto = Context.objectPrototype
  stored : Update.newObject (some proto) before.context = some (this, start.context)
  state : start.state = before.state
  reaches : m.context.Reaches start.context
  fresh : ¬ m.context.heap.Issued this
  made : start.context.get? this = some { prototype := some proto }

variable {fuel : Nat} {m m' before start : Machine σ} {this : ObjectId} {code : FunctionId}
  {name : Atom} {v newTarget : Value} {args : List Value}

theorem prototypeFor_eq_ok
    (ran : (Ordinary.prototypeFor newTarget).run.run (answer F (fuel + 1)) m =
      .ok (.ok proto, before)) :
    (∀ t, newTarget.asObject? = some t → ∃ k c w,
      Update.key "prototype" m.context = some (k, c) ∧
      issue F (fuel + 1) (.get t newTarget k) { m with context := c } = .ok (.ok w, before) ∧
      proto = w.asObject?.getD Context.objectPrototype) ∧
    (newTarget.asObject? = none → before = m ∧ proto = Context.objectPrototype) := by
  unfold Ordinary.prototypeFor at ran
  cases aimed : newTarget.asObject? with
  | none =>
    rw [aimed] at ran
    cases ran
    exact ⟨nofun, fun _ => ⟨rfl, rfl⟩⟩
  | some t =>
    rw [aimed] at ran
    obtain ⟨k, m₁, keyed, ran⟩ := attempt_bind_eq_ok ran
    obtain ⟨w, _, got, ⟨⟩⟩ := attempt_bind_eq_ok ran
    obtain ⟨updated, state⟩ := attempt_act_eq_ok (a := .key "prototype") keyed
    refine ⟨fun t' same => ?_, nofun⟩
    obtain rfl := Option.some.inj same
    have got : (Program.perform (.get t newTarget k)).run (answer F (fuel + 1)) m₁ =
      .ok (.ok w, before) := got
    rw [run_perform] at got
    refine ⟨k, m₁.context, w, updated, ?_, rfl⟩
    rw [← state]
    exact got

theorem begins_of_run (valid : m.context.heap.Valid)
    (asked : (Ordinary.prototypeFor newTarget).run.run (answer F (fuel + 1)) m =
      .ok (.ok proto, before))
    (made : (Attempt.act (.newObject (some proto))).run.run (answer F (fuel + 1)) before =
      .ok (.ok this, start)) :
    Begins F (fuel + 1) newTarget m before proto this start := by
  obtain ⟨stored, state⟩ := attempt_act_eq_ok made
  obtain ⟨⟨e, heap⟩, allocated, same⟩ := Option.map_eq_some_iff.1 stored
  obtain ⟨rfl, context⟩ := Prod.mk.inj same
  have found : m.context.Reaches before.context :=
    (Program.run_returns (answer_returns F (fuel + 1)) _ asked).1
  have ages := found.ages valid
  refine ⟨(prototypeFor_eq_ok asked).1, (prototypeFor_eq_ok asked).2, stored, state,
    found.trans (Action.edits (.newObject (some proto)) stored).reaches, fun issued => ?_, ?_⟩
  · exact ages.heap.valid.not_issued_alloc allocated (ages.heap.issued _ issued)
  · rw [← context]
    exact (ages.heap.valid.get?_alloc allocated _).trans (if_pos rfl)

theorem ordinary_of_function {c : Context} (found : c.function? o = some (code, name, true)) :
    ∃ x, c.get? o = some x ∧ x.proxy? = none := by
  obtain ⟨x, own, function⟩ := Option.bind_eq_some_iff.1 found
  refine ⟨x, own, ?_⟩
  unfold Object.proxy?
  split at function
  next kind => rw [kind]
  next => cases function

theorem construct_eq_ok (valid : m.context.heap.Valid)
    (found : m.context.function? o = some (code, name, true))
    (ran : issue F (fuel + 1) (.construct o args newTarget) m = .ok (.ok v, m')) :
    ∃ before proto this start result,
      Begins F fuel (if newTarget.isObject then newTarget else .object o) m before proto this
        start ∧
      answer F fuel (.runFunction code (.object this) args) start = .ok (.ok result, m') ∧
      v = if result.isObject then result else .object this := by
  obtain ⟨x, own, other⟩ := ordinary_of_function found
  cases fuel with
  | zero => cases ran
  | succ fuel =>
    have able : issue F (fuel + 1) (.isConstructor o) m =
        .ok ((m.context.function? o).any (·.2.2), m) := issue_ordinary fuel rfl own other
    rw [found] at able
    have settled : issue F (fuel + 2) (.construct o args newTarget) m =
        (Ordinary.construct o args
          (if newTarget.isObject then newTarget else .object o)).run.run
          (answer F (fuel + 1)) m :=
      Eq.trans (perform_able rfl able) (dispatch_ordinary own other)
    rw [settled] at ran
    rw [Ordinary.construct, Attempt.run_context, found] at ran
    obtain ⟨proto, before, asked, ran⟩ := attempt_bind_eq_ok ran
    obtain ⟨this, start, made, ran⟩ := attempt_bind_eq_ok ran
    obtain ⟨result, _, body, ⟨⟩⟩ := attempt_bind_eq_ok ran
    refine ⟨before, proto, this, start, result, begins_of_run valid asked made, ?_, rfl⟩
    exact (congrFun (bind_pure _) start).symm.trans body

/-- A construct that answers has made the object on which the body ran, and it answers that
object when the body has none of its own. The object was not there before. When the construct
returns it is alive, unless a collection was asked for on the way that did not find it along
stored handles; and it has the prototype it was made with, unless another one was stored. -/
theorem constructed_thrives (F : Foreign σ) (reachable : m.context.Reachable)
    (constructs : m.context.function? o = some (code, name, true))
    (ran : issue F (fuel + 1) (.construct o args newTarget) m = .ok (.ok v, m')) :
    ∃ before proto this start result,
      Begins F fuel (if newTarget.isObject then newTarget else .object o) m before proto this
        start ∧
      answer F fuel (.runFunction code (.object this) args) start = .ok (.ok result, m') ∧
      (v = if result.isObject then result else .object this) ∧
      let t := history F fuel (.runFunction code (.object this) args) start
      (t.Sustains this → m'.context.isLive this) ∧
      (t.Retains this → ∀ x, m'.context.get? this = some x → x.prototype = some proto) := by
  obtain ⟨before, proto, this, start, result, begins, body, rfl⟩ :=
    construct_eq_ok reachable.valid constructs ran
  have valid : start.context.heap.Valid := (reachable.ages begins.reaches).heap.valid
  have thrives : Thrives this proto [] start.context :=
    { valid
      issued := valid.issued_of_live begins.made
      live := fun _ => Option.isSome_iff_exists.2 ⟨_, begins.made⟩
      prototype := fun _ x here => by rw [← Option.some.inj (begins.made.symm.trans here)] }
  have ended := ((upholds_thrives F this proto).answer fuel _ start [] thrives).ended _ _ body
  rw [List.nil_append] at ended
  exact ⟨before, proto, this, start, result, begins, body, rfl,
    fun sustains => ended.live (History.sustains_flat.2 sustains),
    fun retains => ended.prototype (History.retains_flat.2 retains)⟩

def forge : Update ObjectId := do
  let f ← Update.newConstructor ⟨0⟩ "C"
  Update.addRoot f
  return f

def forged : ObjectId × Context :=
  (forge (Context.create {})).getD default

theorem forged_reachable : forged.2.Reachable := by
  have edits : Update.Edits forge :=
    (Action.edits (.newConstructor ⟨0⟩ "C")).bind fun f =>
      (Action.edits (.addRoot f)).bind fun _ => .pure f
  have ran : forge (Context.create {}) = some forged := rfl
  exact ⟨{}, (edits ran).reaches⟩

def ware : ObjectId := .first ⟨5, by decide⟩

def careless : Foreign Unit :=
  { Foreign.idle with
    function := fun _ _ _ => do
      discard <| Program.collect
      return .ok .undefined }

/-- The construct succeeds with a new object, which is not alive. -/
theorem careless_construct : ∃ m', issue careless 3 (.construct forged.1 [] .undefined)
      ⟨forged.2, ()⟩ = .ok (.ok (.object ware), m') ∧
    forged.2.Reachable ∧ forged.2.function? forged.1 = some (⟨0⟩, ⟨0⟩, true) ∧
    ¬ forged.2.heap.Issued ware ∧ m'.context.isLive ware = false :=
  ⟨_, rfl, forged_reachable, rfl, by decide +kernel, rfl⟩

def careful : Foreign Unit :=
  { Foreign.idle with
    function := fun _ this _ => do
      if let some o := this.asObject? then Program.addRoot o
      discard <| Program.collect
      return .ok .undefined }

def spares (o : ObjectId) (μ : Moment) : Bool :=
  match μ.event with
  | .asked .collect => 0 < μ.context.registrations o && μ.context.isLive o
  | _ => true

theorem sustains_of_spares {t : History} (all : t.all (spares o) = true) : t.Sustains o := by
  intro μ here asked
  have spared := List.all_eq_true.1 all μ here
  rw [spares, asked, Bool.and_eq_true, decide_eq_true_eq] at spared
  exact .root (.of_registrations spared.1) spared.2

def sheltered (F : Foreign Unit) (m : Machine Unit) : Bool :=
  match Update.key "prototype" m.context with
  | some (k, c) =>
    match issue F 2 (.get forged.1 (.object forged.1) k) { m with context := c } with
    | .ok (.ok w, before) =>
      match Update.newObject (some (w.asObject?.getD Context.objectPrototype)) before.context with
      | some (this, c) => this == ware &&
        (history F 2 (.runFunction ⟨0⟩ (.object this) []) ⟨c, before.state⟩).all (spares this)
      | none => false
    | _ => false
  | none => false

theorem careful_construct : ∃ m', issue careful 3 (.construct forged.1 [] .undefined)
      ⟨forged.2, ()⟩ = .ok (.ok (.object ware), m') ∧ m'.context.isLive ware := by
  obtain ⟨m', ran⟩ : ∃ m', issue careful 3 (.construct forged.1 [] .undefined) ⟨forged.2, ()⟩ =
      .ok (.ok (.object ware), m') := ⟨_, rfl⟩
  have function : forged.2.function? forged.1 = some (⟨0⟩, ⟨0⟩, true) := rfl
  obtain ⟨before, proto, this, start, result, begins, body, value, live, -⟩ :=
    constructed_thrives careful (m := ⟨forged.2, ()⟩) forged_reachable function ran
  obtain ⟨k, c, w, keyed, got, rfl⟩ := begins.asked forged.1 rfl
  have got : issue careful 2 (.get forged.1 (.object forged.1) k) ⟨c, ()⟩ =
    .ok (.ok w, before) := got
  have shelters : sheltered careful ⟨forged.2, ()⟩ = true := by decide +kernel
  simp only [sheltered, keyed, got, begins.stored, ← begins.state, Bool.and_eq_true,
    beq_iff_eq] at shelters
  obtain ⟨rfl, spared⟩ := shelters
  exact ⟨m', ran, live (sustains_of_spares spared)⟩

end Engine

end ProxyEngine
