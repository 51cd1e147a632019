import ProxyEngine.Proofs.Engine.Runs
import ProxyEngine.Proofs.Wrapper.Chain

/-! Assignment through wrappers. An assignment comes back to its receiver, so with
a wrapper as receiver it goes through the chain twice: once to find the property
and once, from where it was found, to store the value. On a target without
accessors in its way this is the assignment on the target itself. -/

namespace ProxyEngine

variable {σ : Type}

namespace Context

/-- From `o` to the end of the prototype chain there are live objects only, none of
which is a proxy or has an accessor under `k`. -/
inductive PlainChain (c : Context) (k : PropertyKey) : ObjectId → Prop
  | last {o : ObjectId} {x : Object} : c.get? o = some x → x.proxy? = none →
      (∀ own, c.ownDescriptor? o k = some own → own.isAccessor = false) → x.prototype = none →
      PlainChain c k o
  | next {o p : ObjectId} {x : Object} : c.get? o = some x → x.proxy? = none →
      (∀ own, c.ownDescriptor? o k = some own → own.isAccessor = false) → x.prototype = some p →
      PlainChain c k p → PlainChain c k o

end Context

namespace Attempt

variable {α β : Type} {answer : Answerer σ} {m m₁ : Machine σ}

theorem run_of {p : Program σ (Fallible α)} {f : α → Attempt σ β} {a : α}
    (ran : p.run answer m = .ok (.ok a, m₁)) :
    (Attempt.of p >>= f).run.run answer m = (f a).run.run answer m₁ := by
  rw [ExceptT.run_bind, Program.run_bind]
  exact Run.bind_of_ok ran

end Attempt

namespace Engine

open Context

variable {F : Foreign σ} {m : Machine σ} {o r t : ObjectId} {ws : List ObjectId}
  {k : PropertyKey} {v : Value} {x : Object}

theorem run_perform {s : Shape} (fuel : Nat) (op : Op s) :
    (Program.perform op).run (Engine.answer F fuel) = issue F fuel op :=
  bind_pure _

theorem run_act (fuel : Nat) (a : Action) :
    (Program.act a).run (Engine.answer F (fuel + 1)) = Run.update a.update :=
  bind_pure _

/-! What the target answers. -/

theorem issue_ordinary {s : Shape} {op : Op s} (fuel : Nat) (unasked : op.query? = none)
    (found : m.context.get? op.subject = some x) (other : x.proxy? = none) :
    issue F (fuel + 1) op m = (Ordinary.method op).run (Engine.answer F fuel) m := by
  rw [issue_unasked unasked, dispatch_ordinary found other]

theorem issue_getOwnProperty (fuel : Nat) (found : m.context.get? t = some x)
    (other : x.proxy? = none) :
    issue F (fuel + 1) (.getOwnProperty t k) m = .ok (.ok (m.context.ownDescriptor? t k), m) :=
  issue_ordinary fuel rfl found other

theorem issue_getPrototype (fuel : Nat) (found : m.context.get? t = some x)
    (other : x.proxy? = none) :
    issue F (fuel + 1) (.getPrototype t) m = .ok (.ok x.prototype, m) := by
  have stored : m.context.storedPrototype t = x.prototype := by simp [storedPrototype, found]
  rw [← stored]
  exact issue_ordinary fuel rfl found other

theorem issue_defineProperty (fuel : Nat) (d : Descriptor) (found : m.context.get? t = some x)
    (other : x.proxy? = none) :
    issue F (fuel + 2) (.defineProperty t k d) m =
      Run.update (Except.ok <$> Update.defineStored t k d) m := by
  rw [issue_ordinary (fuel + 1) rfl found other, Run.update_map]
  exact congrFun ((Program.run_map _ _ _).trans (congrArg _ (run_act fuel _))) m

/-- The receiver `r` answers for `t` where an assignment asks it. -/
structure Stands (F : Foreign σ) (fuel : Nat) (r t : ObjectId) (k : PropertyKey)
    (m : Machine σ) : Prop where
  own : issue F fuel (.getOwnProperty r k) m = .ok (.ok (m.context.ownDescriptor? t k), m)
  define : ∀ d, issue F fuel (.defineProperty r k d) m =
    Run.update (Except.ok <$> Update.defineStored t k d) m

theorem stands_of_chain (F : Foreign σ) (fuel : Nat) (chain : m.context.Chain r ws t)
    (room : m.context.depth + ws.length ≤ m.context.maxDepth) (k : PropertyKey) :
    Stands F (fuel + 2 + ws.length) r t k m := by
  obtain ⟨found, other⟩ | _ := chain.ends
  refine ⟨?_, fun d => ?_⟩
  · have own : issue F (fuel + 2) (.getOwnProperty t k) (m.deeper ws.length) =
        .ok (.ok (m.context.ownDescriptor? t k), m.deeper ws.length) :=
      issue_getOwnProperty (fuel + 1) found other
    rw [issue_through F chain room (fuel + 2) rfl rfl]
    exact (Run.nested_of_ok own).trans (by rw [Machine.shallower_deeper])
  · have define : issue F (fuel + 2) (.defineProperty t k d) (m.deeper ws.length) = _ :=
      issue_defineProperty fuel d found other
    have level := (Update.level_defineStored t k d).map (Except.ok (ε := Failed))
    rw [issue_through F chain room (fuel + 2) rfl rfl]
    exact (Run.nested_congr define).trans (congrFun (Run.nested_update ws.length level) m)

theorem writeTo_stands {fuel : Nat} (stands : Stands F fuel r t k m) (v : Value) :
    (Ordinary.writeTo r k v).run.run (Engine.answer F fuel) m =
      Run.update (Except.ok <$> Update.assignStored t k v) m := by
  have own := stands.own
  rw [← run_perform] at own
  unfold Ordinary.writeTo Update.assignStored
  rw [map_bind, Run.update_get]
  refine (Attempt.run_of own).trans ?_
  cases m.context.ownDescriptor? t k with
  | none => exact (congrFun (run_perform fuel _) m).trans (stands.define _)
  | some existing =>
    dsimp only
    cases existing.isAccessor with
    | true => rfl
    | false =>
      cases existing.isWritable with
      | true => exact (congrFun (run_perform fuel _) m).trans (stands.define _)
      | false => rfl

def decided (t : ObjectId) (k : PropertyKey) (v : Value) (writable : Bool) : Update Outcome :=
  if writable then Update.assignStored t k v else return .refused .readOnly

theorem assign_stands {fuel : Nat} (stands : Stands F fuel r t k m) (v : Value) {own : Descriptor}
    (data : own.isAccessor = false) :
    (Ordinary.assign own k v (.object r)).run.run (Engine.answer F fuel) m =
      Run.update (Except.ok <$> decided t k v own.isWritable) m := by
  unfold Ordinary.assign
  rw [if_neg (by simp [data]), Value.asObject?_object]
  cases own.isWritable with
  | true => exact writeTo_stands stands v
  | false => rfl

/-- At any depth of `c` an assignment on `o` is decided after some steps, for every
receiver that stands for `t`. -/
def Settles (σ : Type) (c : Context) (o t : ObjectId) (k : PropertyKey) (v : Value) (steps : Nat)
    (writable : Bool) : Prop :=
  ∀ (F : Foreign σ) (fuel : Nat) (m : Machine σ) (r : ObjectId),
    m.context = { c with depth := m.context.depth } → Stands F (fuel + 1) r t k m →
    issue F (fuel + 1 + steps + 1) (.set o k v (.object r)) m =
      Run.update (Except.ok <$> decided t k v writable) m

variable {c : Context}

theorem issue_set (fuel : Nat) (found : c.get? o = some x) (other : x.proxy? = none)
    (same : m.context = { c with depth := m.context.depth }) (receiver : Value) :
    issue F (fuel + 1) (.set o k v receiver) m =
      (Ordinary.setWithOwn o k v receiver (c.ownDescriptor? o k)).run.run
        (Engine.answer F fuel) m := by
  have found' : m.context.get? o = some x := by
    rw [same]
    exact found
  have own : m.context.ownDescriptor? o k = c.ownDescriptor? o k := by
    rw [same]
    rfl
  rw [← own]
  exact issue_ordinary fuel rfl found' other

theorem settles_of_own {own : Descriptor} (found : c.get? o = some x) (other : x.proxy? = none)
    (here : c.ownDescriptor? o k = some own) (data : own.isAccessor = false) (t : ObjectId)
    (v : Value) : Settles σ c o t k v 0 own.isWritable := by
  intro F fuel m r same stands
  rw [issue_set (fuel + 1) found other same, here]
  exact assign_stands stands v data

theorem settles_of_last (found : c.get? o = some x) (other : x.proxy? = none)
    (here : c.ownDescriptor? o k = none) (ends : x.prototype = none) (t : ObjectId)
    (v : Value) : Settles σ c o t k v 0 true := by
  intro F fuel m r same stands
  have proto := issue_getPrototype (F := F) (m := m) fuel (by rw [same]; exact found) other
  rw [← run_perform, ends] at proto
  rw [issue_set (fuel + 1) found other same, here]
  exact (Attempt.run_of proto).trans (assign_stands stands v rfl)

theorem settles_of_next {p : ObjectId} {steps : Nat} {writable : Bool} (found : c.get? o = some x)
    (other : x.proxy? = none) (here : c.ownDescriptor? o k = none) (up : x.prototype = some p)
    (later : Settles σ c p t k v steps writable) : Settles σ c o t k v (steps + 1) writable := by
  intro F fuel m r same stands
  have proto := issue_getPrototype (F := F) (m := m) (fuel + 1 + steps) (by rw [same]; exact found)
    other
  rw [← run_perform, up] at proto
  rw [issue_set (fuel + 1 + (steps + 1)) found other same, here]
  refine (Attempt.run_of proto).trans ?_
  exact (congrFun (run_perform _ _) m).trans (later F fuel m r same stands)

/-- An assignment walks a plain chain to the nearest property without changing anything,
and from then on deals with the receiver only. -/
theorem exists_settles (plain : c.PlainChain k o) (t : ObjectId) (v : Value) :
    ∃ steps writable, Settles σ c o t k v steps writable := by
  induction plain with
  | @last o x found other data ends =>
    cases here : c.ownDescriptor? o k with
    | some own => exact ⟨0, _, settles_of_own found other here (data own here) t v⟩
    | none => exact ⟨0, true, settles_of_last found other here ends t v⟩
  | @next o p x found other data up _ ih =>
    cases here : c.ownDescriptor? o k with
    | some own => exact ⟨0, _, settles_of_own found other here (data own here) t v⟩
    | none =>
      obtain ⟨steps, writable, later⟩ := ih
      exact ⟨steps + 1, writable, settles_of_next found other here up later⟩

theorem level_decided (t : ObjectId) (k : PropertyKey) (v : Value) (writable : Bool) :
    (decided t k v writable).Level := by
  cases writable with
  | true => exact Update.level_assignStored t k v
  | false => exact .pure _

theorem decided_isSome (t : ObjectId) (k : PropertyKey) (v : Value) (writable : Bool)
    (c : Context) : (decided t k v writable c).isSome := by
  cases writable with
  | true => exact Update.assignStored_isSome t k v c
  | false => rfl

theorem set_through (F : Foreign σ) (chain : m.context.Chain o ws t)
    (room : m.context.depth + 2 * ws.length ≤ m.context.maxDepth)
    (plain : m.context.PlainChain k t) (v : Value) :
    ∃ enough out c', ∀ fuel, enough ≤ fuel →
      issue F fuel (.set t k v (.object t)) m = .ok (.ok out, ⟨c', m.state⟩) ∧
      issue F fuel (.set o k v (.object o)) m = .ok (.ok out, ⟨c', m.state⟩) := by
  obtain ⟨steps, writable, settles⟩ := exists_settles (σ := σ) plain t v
  obtain ⟨⟨out, c'⟩, result⟩ := Option.isSome_iff_exists.1 (decided_isSome t k v writable m.context)
  have decided : Run.update (Except.ok <$> decided t k v writable) m =
      .ok ((.ok out : Fallible Outcome), ⟨c', m.state⟩) := by
    rw [Run.update_map]
    exact Run.map_of_ok (Run.update_of_some result)
  refine ⟨2 * ws.length + steps + 3, out, c', fun fuel more => ?_⟩
  obtain ⟨spare, rfl⟩ := Nat.exists_eq_add_of_le' more
  constructor
  · have stands := stands_of_chain F (spare + 2 * ws.length) chain.ends (by simp; omega) k
    have settled := settles F (spare + 2 * ws.length + 1) m t rfl stands
    rw [show spare + (2 * ws.length + steps + 3) =
      spare + 2 * ws.length + 1 + 1 + steps + 1 by omega]
    exact settled.trans decided
  · have below : (m.deeper ws.length).context.depth + ws.length ≤ m.context.maxDepth := by
      show m.context.depth + ws.length + ws.length ≤ _
      omega
    have stands := stands_of_chain (m := m.deeper ws.length) F spare (chain.deeper _) below k
    rw [show spare + 2 + ws.length = spare + ws.length + 1 + 1 by omega] at stands
    have settled := settles F (spare + ws.length + 1) (m.deeper ws.length) o rfl stands
    have through : issue F (_ + ws.length) (.set o k v (.object o)) m = _ :=
      issue_through F chain (by omega) (spare + ws.length + 1 + 1 + steps + 1) rfl rfl
    have level := (level_decided t k v writable).map (Except.ok (ε := Failed))
    rw [show spare + (2 * ws.length + steps + 3) =
      spare + ws.length + 1 + 1 + steps + 1 + ws.length by omega, through]
    exact (Run.nested_congr settled).trans
      ((congrFun (Run.nested_update ws.length level) m).trans decided)

/-- Wrappers are transparent: an operation on the outermost is the operation on the
target, as many levels further down as there are wrappers. Only the type error about an
object that cannot be called or constructed names the object that was asked. -/
theorem wrappers_transparent (F : Foreign σ) {m : Machine σ} {o t : ObjectId}
    {ws : List ObjectId} (chain : m.context.Chain o ws t)
    (room : m.context.depth + ws.length ≤ m.context.maxDepth) :
    (∀ {s : Shape} {op op' : Op s}, op.subject = o → op.Restates ws t op' →
      (m.context.suits t op = true → ∀ fuel,
        issue F (fuel + ws.length) op m = (issue F fuel op').nested ws.length m) ∧
      (m.context.suits t op = false → ∀ fuel,
        issue F (fuel + 2 + ws.length) op m = Run.update (.complain op o) m ∧
        (issue F (fuel + 2) op').nested ws.length m = Run.update (.complain op t) m)) ∧
    (∀ k v, m.context.PlainChain k t →
      m.context.depth + 2 * ws.length ≤ m.context.maxDepth →
      ∃ enough out c', ∀ fuel, enough ≤ fuel →
        issue F fuel (.set t k v (.object t)) m = .ok (.ok out, ⟨c', m.state⟩) ∧
        issue F fuel (.set o k v (.object o)) m = .ok (.ok out, ⟨c', m.state⟩)) ∧
    m.context.unwrap o = t := by
  refine ⟨fun aimed same => ?_, fun k v plain more => set_through F chain more plain v, ?_⟩
  · obtain rfl := same.eq_retarget
    refine ⟨fun suits fuel => issue_through F chain room fuel aimed suits, fun unsuited fuel => ?_⟩
    exact refused_through F chain room aimed unsuited fuel
  · exact chain.unwrapAtMost (by omega)

def wrapped : Update (ObjectId × ObjectId × ObjectId) := do
  let t ← Update.newObject none
  let inner ← Update.newProxy (.builtin .wrapper) (.object t) none {}
  let outer ← Update.newProxy (.traps ⟨⟨0⟩, []⟩ 0 .wrapper) (.object inner) none {}
  return (outer, inner, t)

theorem chain_wrapped {outer inner t : ObjectId} {c : Context}
    (ran : wrapped (Context.create {}) = some ((outer, inner, t), c)) :
    c.Chain outer [outer, inner] t := by
  cases ran
  exact .wrap rfl (.untrapped ⟨0⟩ 0) rfl (.wrap rfl .builtin rfl (.target rfl rfl))

theorem wrapped_transparent :
    ∃ outer inner t c, wrapped (Context.create {}) = some ((outer, inner, t), c) ∧
      c.unwrap outer = t ∧
      issue Foreign.idle 3 (.isExtensible outer) ⟨c, ()⟩ = .ok (.ok true, ⟨c, ()⟩) := by
  obtain ⟨⟨⟨outer, inner, t⟩, c⟩, ran⟩ : ∃ r, wrapped (Context.create {}) = some r := ⟨_, rfl⟩
  have room : c.depth + 2 ≤ c.maxDepth := by
    cases ran
    decide
  obtain ⟨same, -, unwrapped⟩ :=
    wrappers_transparent Foreign.idle (m := ⟨c, ()⟩) (chain_wrapped ran) room
  have through := (@same _ (.isExtensible outer) (.isExtensible t) rfl ⟨rfl, rfl, rfl⟩).1 rfl 1
  refine ⟨outer, inner, t, c, ran, unwrapped, through.trans ?_⟩
  cases ran
  rfl

end Engine

end ProxyEngine
