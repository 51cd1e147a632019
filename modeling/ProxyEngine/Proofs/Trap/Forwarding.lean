import ProxyEngine.Boundary
import ProxyEngine.Proofs.Engine.Fuel
import ProxyEngine.Proofs.Object.Lineage

/-! Forwarding proxies. Three traps issue their operation once more on another object,
everything else is left to the plain handler, which rebuilds the derived operations
from operations on the proxy. On an ordinary object with an ordinary prototype
chain the rebuilt operations agree with the direct ones. -/

namespace ProxyEngine

def Slot.forwarded : List Slot :=
  [.getOwnProperty, .defineProperty, .ownKeys]

variable {σ : Type}

namespace Engine

open Context

/-- The handler of `p` is a table over the plain handler with the forwarded slots filled,
`p` has the stored prototype of `s`, and a forwarded trap run where the embedder's state
and the proxy's are as they are now is the operation issued on `s`. -/
structure Forwarding (F : Foreign σ) (table : TrapTable) (extra : Nat) (p s : ObjectId)
    (m : Machine σ) : Prop where
  handler : m.context.handler? p = some (.traps table extra .plain)
  filled : ∀ slot, table.has slot = true ↔ slot ∈ Slot.forwarded
  prototype : m.context.storedPrototype p = m.context.storedPrototype s
  reissues : ∀ {s' : Shape} (op : Op s'), op.subject = p → op.slot ∈ Slot.forwarded →
    ∀ fuel m', m'.state = m.state → m'.context.proxy? p = m.context.proxy? p →
      (Reply.toAnswer <$> F.trap table.id op s'.initial).run (Engine.answer F fuel) m' =
        issue F fuel (op.redirect s) m'

/-- For all fuel from some amount on, both operations end with the same answer and the same
machine. -/
def Agree (F : Foreign σ) (m : Machine σ) {s : Shape} (op op' : Op s) : Prop :=
  ∃ a m' enough, ∀ fuel, enough ≤ fuel →
    issue F fuel op m = .ok (a, m') ∧ issue F fuel op' m = .ok (a, m')

theorem Agree.same {F : Foreign σ} {m m₁ m₂ : Machine σ} {s : Shape} {op op' : Op s} {fuel : Nat}
    {a a' : s.Answer} (agree : Agree F m op op') (first : issue F fuel op m = .ok (a, m₁))
    (second : issue F fuel op' m = .ok (a', m₂)) : a = a' := by
  obtain ⟨both, m', enough, later⟩ := agree
  have ends := later (max enough fuel) (Nat.le_max_left ..)
  have more : fuel ≤ max enough fuel := Nat.le_max_right ..
  have left := (answer_of_more F more first).symm.trans ends.1
  have right := (answer_of_more F more second).symm.trans ends.2
  cases left
  cases right
  rfl

section

variable {F : Foreign σ} {table : TrapTable} {extra : Nat} {p s : ObjectId} {m : Machine σ}
  {fuel : Nat} {x : Object} {os : List ObjectId}

theorem Forwarding.deeper (forwarding : Forwarding F table extra p s m) (n : Nat) :
    Forwarding F table extra p s (m.deeper n) :=
  ⟨forwarding.handler, forwarding.filled, forwarding.prototype, forwarding.reissues⟩

theorem Op.unasked_of_forwarded {s : Shape} {op : Op s}
    (forwarded : Slot.forwarded.contains op.slot = true) : op.query? = none := by
  cases op <;> first | rfl | cases forwarded

theorem Op.handed_of_forwarded {s : Shape} {op : Op s}
    (forwarded : Slot.forwarded.contains op.slot = true) : op.handed = op := by
  cases op <;> first | rfl | cases forwarded

variable (forwarding : Forwarding F table extra p s m)
  (room : m.context.depth < m.context.maxDepth)

include forwarding room

/-- A filled slot: the operation on the other object, one level further down. -/
theorem issue_forwarded {s' : Shape} {op : Op s'} (aimed : op.subject = p)
    (forwarded : Slot.forwarded.contains op.slot = true) (fuel : Nat) :
    issue F (fuel + 1) op m = (issue F fuel (op.redirect s)).nested 1 m := by
  have listed := List.contains_iff_mem.1 forwarded
  have trapped : (Handler.traps table extra .plain).trapped? op.slot = some table.id :=
    if_pos ((forwarding.filled _).2 listed)
  rw [issue_unasked (Op.unasked_of_forwarded forwarded),
    dispatch_proxy (aimed ▸ forwarding.handler) room, F.method_of_filled trapped,
    Op.handed_of_forwarded forwarded]
  exact Run.nested_congr (forwarding.reissues op aimed listed fuel _ rfl rfl)

/-- An empty slot: what the plain handler does, one level further down. -/
theorem issue_derived {s' : Shape} {op : Op s'} (aimed : op.subject = p)
    (unasked : op.query? = none) (derived : Slot.forwarded.contains op.slot = false)
    (fuel : Nat) :
    issue F (fuel + 1) op m = ((Plain.method op).run (Engine.answer F fuel)).nested 1 m := by
  have empty : (Handler.traps table extra .plain).trapped? op.slot = none :=
    if_neg fun filled =>
      nomatch derived.symm.trans (List.contains_iff_mem.2 ((forwarding.filled _).1 filled))
  rw [issue_unasked unasked, dispatch_proxy (aimed ▸ forwarding.handler) room,
    F.method_of_empty empty]
  rfl

theorem agree_of_answer {s' : Shape} {op op' : Op s'} (aimed : op.subject = p)
    (unasked : op.query? = none) (derived : Slot.forwarded.contains op.slot = false)
    (a : s'.Answer) (enough : Nat)
    (below : ∀ fuel, (Plain.method op).run (Engine.answer F (fuel + enough)) (m.deeper 1) =
      .ok (a, m.deeper 1))
    (direct : ∀ fuel, issue F (fuel + enough) op' m = .ok (a, m)) : Agree F m op op' := by
  refine ⟨a, m, enough + 1, fun fuel more => ?_⟩
  obtain ⟨fuel, rfl⟩ := Nat.exists_eq_add_of_le' more
  constructor
  · rw [← Nat.add_assoc, issue_derived forwarding room aimed unasked derived]
    refine (Run.nested_of_ok (below fuel)).trans ?_
    rw [Machine.shallower_deeper]
  · rw [Nat.add_comm enough, ← Nat.add_assoc]
    exact direct (fuel + 1)

variable (found : m.context.get? s = some x) (other : x.proxy? = none)

include found other

theorem mirrors_forwarded (fuel : Nat) : Mirrors F (fuel + 2) p s m := by
  have self := mirrors_self (F := F) (m := m.deeper 1) fuel found other
  refine ⟨fun listed => ?_, ?_, ?_⟩
  · rw [issue_forwarded forwarding room rfl rfl]
    exact (Run.nested_of_ok (self.keys listed)).trans (by rw [Machine.shallower_deeper]; rfl)
  · intro k
    rw [issue_forwarded forwarding room rfl rfl]
    exact (Run.nested_of_ok (self.own k)).trans (by rw [Machine.shallower_deeper]; rfl)
  · rw [issue_derived forwarding room rfl rfl rfl,
      ← forwarding.prototype]
    have read : (Plain.method (.getPrototype p)).run (Engine.answer F (fuel + 1)) (m.deeper 1) =
      .ok (.ok (m.context.storedPrototype p), m.deeper 1) := rfl
    exact (Run.nested_of_ok read).trans (by rw [Machine.shallower_deeper])

theorem stands_forwarded (fuel : Nat) (k : PropertyKey) : Stands F (fuel + 3) p s k m := by
  refine ⟨(mirrors_forwarded forwarding room found other (fuel + 1)).own k, fun d => ?_⟩
  have define := issue_defineProperty (F := F) (m := m.deeper 1) (k := k) fuel d found other
  have level := (Update.level_defineStored s k d).map (Except.ok (ε := Failed))
  rw [issue_forwarded forwarding room rfl rfl]
  exact (Run.nested_congr define).trans (congrFun (Run.nested_update 1 level) m)

theorem get_forwarded (fuel : Nat) (receiver : Value) (k : PropertyKey) :
    (Plain.get p receiver k).run.run (Engine.answer F (fuel + 2)) m =
      issue F (fuel + 3) (.get s receiver k) m := by
  have mirrors := mirrors_forwarded forwarding room found other fuel
  have own := mirrors.own k
  have prototype := mirrors.prototype
  rw [← run_perform] at own prototype
  rw [issue_ordinary (fuel + 2) rfl found other, run_get]
  refine (Attempt.run_of own).trans ?_
  cases m.context.ownDescriptor? s k with
  | some d => rfl
  | none =>
    refine (Attempt.run_of prototype).trans ?_
    cases m.context.storedPrototype s <;> rfl

theorem has_forwarded (fuel : Nat) (k : PropertyKey) :
    (Plain.has p k).run.run (Engine.answer F (fuel + 2)) m = issue F (fuel + 3) (.has s k) m := by
  have mirrors := mirrors_forwarded forwarding room found other fuel
  have own := mirrors.own k
  have prototype := mirrors.prototype
  rw [← run_perform] at own prototype
  rw [issue_ordinary (fuel + 2) rfl found other, run_has]
  refine (Attempt.run_of own).trans ?_
  cases m.context.ownDescriptor? s k with
  | some d => rfl
  | none =>
    refine (Attempt.run_of prototype).trans ?_
    cases m.context.storedPrototype s <;> rfl

theorem hasOwn_forwarded (fuel : Nat) (k : PropertyKey) :
    (Plain.hasOwn p k).run.run (Engine.answer F (fuel + 2)) m =
      .ok (.ok (m.context.ownDescriptor? s k).isSome, m) := by
  have own := (mirrors_forwarded forwarding room found other fuel).own k
  rw [← run_perform] at own
  unfold Plain.hasOwn
  rw [map_eq_pure_bind]
  exact Attempt.run_of own

theorem run_enumerableAmong (fuel : Nat) (ks listed : List PropertyKey) :
    (Plain.enumerableAmong p ks listed).run (Engine.answer F (fuel + 2)) m =
      .ok ({ keys := listed ++ ks.filter fun k =>
        (m.context.ownDescriptor? s k).any Descriptor.isEnumerable }, m) := by
  induction ks generalizing listed with
  | nil =>
    rw [List.filter_nil, List.append_nil]
    rfl
  | cons k ks ih =>
    have own := (mirrors_forwarded forwarding room found other fuel).own k
    rw [← run_perform] at own
    unfold Plain.enumerableAmong
    rw [Program.run_bind]
    refine (Run.bind_of_ok own).trans ((ih _).trans ?_)
    rw [List.filter_cons]
    cases (m.context.ownDescriptor? s k).any Descriptor.isEnumerable <;> simp

theorem ownEnumerableKeys_forwarded (fuel : Nat) (listed : List PropertyKey) :
    (Plain.ownEnumerableKeys p listed).run (Engine.answer F (fuel + 2)) m =
      .ok ({ keys := listed ++ m.context.ownEnumerableKeys s }, m) := by
  have keys := (mirrors_forwarded forwarding room found other fuel).keys []
  rw [← run_perform] at keys
  unfold Plain.ownEnumerableKeys
  rw [Program.run_bind]
  refine (Run.bind_of_ok keys).trans ?_
  dsimp only
  rw [if_neg Bool.false_ne_true, run_enumerableAmong forwarding room found other,
    m.context.ownEnumerableKeys_eq]
  rfl

theorem enumerate_forwarded (lineage : m.context.Lineage (some s) os)
    (listed : List PropertyKey) (enough : os.length ≤ fuel) :
    (Plain.method (.enumerate p listed)).run (Engine.answer F (fuel + 3)) m =
      .ok (({ keys := listed ++ m.context.enumerated os [] } : Listing), m) := by
  have mirrors := mirrors_forwarded forwarding room found other fuel
  obtain ⟨_, os, ⟨⟩, -, -, rest⟩ := lineage.start
  have apart : ∀ q ∈ os, q ∉ [p] := by
    intro q listed same
    obtain ⟨y, found', other'⟩ := rest.ordinary listed
    have proxy := forwarding.handler
    rw [← List.mem_singleton.1 same, Context.handler?_eq, found'] at proxy
    simp [Object.handler?, other'] at proxy
  refine (congrFun (Program.run_ask _ (.enumerateFrom p [] [] listed)) m).trans ?_
  exact run_enumerateFrom mirrors List.not_mem_nil [] listed rest fun q seen listed lineage =>
    answer_enumerateFrom lineage apart seen listed
      (by simp only [List.length_cons] at enough; omega)

/-- An assignment that comes back to the proxy stores on the other object, by the same
decision as one on that object. -/
theorem set_forwarded {k : PropertyKey} (plain : m.context.PlainChain k s) (v : Value) :
    ∃ steps writable, Settles σ m.context s s k v steps writable ∧ ∀ fuel,
      (Plain.set p k v (.object p)).run.run (Engine.answer F (fuel + 4 + steps)) m =
        Run.update (Except.ok <$> decided s k v writable) m := by
  have mirrors := mirrors_forwarded forwarding room found other
  have stands := fun fuel => stands_forwarded forwarding room found other fuel k
  have own (fuel steps : Nat) : (Plain.set p k v (.object p)).run.run
      (Engine.answer F (fuel + 4 + steps)) m =
      (Ordinary.setWithOwn p k v (.object p) (m.context.ownDescriptor? s k)).run.run
        (Engine.answer F (fuel + 4 + steps)) m := by
    have own := (mirrors (fuel + 2 + steps)).own k
    rw [← run_perform, show fuel + 2 + steps + 2 = fuel + 4 + steps by omega] at own
    exact Attempt.run_of own
  have data : ∀ own, m.context.ownDescriptor? s k = some own → own.isAccessor = false := by
    cases plain <;> assumption
  -- Both assignments see the same own descriptor and branch alike.
  cases here : m.context.ownDescriptor? s k with
  | some d =>
    refine ⟨0, _, settles_of_own found other here (data d here) s v, fun fuel => ?_⟩
    rw [own, here]
    exact assign_stands (stands (fuel + 1)) v (data d here)
  | none =>
    have prototype := fun fuel => (mirrors fuel).prototype
    simp only [← run_perform] at prototype
    cases plain with
    | @last _ y found' other' _ ends =>
      have up : m.context.storedPrototype s = none := by simp [storedPrototype, found', ends]
      refine ⟨0, true, settles_of_last found' other' here ends s v, fun fuel => ?_⟩
      rw [own, here]
      refine (Attempt.run_of (prototype (fuel + 2))).trans ?_
      rw [up]
      exact assign_stands (stands (fuel + 1)) v rfl
    | @next _ q y found' other' _ up rest =>
      have up' : m.context.storedPrototype s = some q := by simp [storedPrototype, found', up]
      obtain ⟨steps, writable, later⟩ := exists_settles (σ := σ) rest s v
      refine ⟨steps + 1, writable, settles_of_next found' other' here up later, fun fuel => ?_⟩
      rw [own, here]
      have next := prototype (fuel + 3 + steps)
      rw [show fuel + 3 + steps + 2 = fuel + 4 + (steps + 1) by omega] at next
      refine (Attempt.run_of next).trans ?_
      rw [up', show fuel + 4 + (steps + 1) = fuel + 3 + 1 + steps + 1 by omega]
      exact (congrFun (run_perform _ _) m).trans (later F (fuel + 3) m p rfl (stands (fuel + 1)))

end

section

variable {F : Foreign σ} {table : TrapTable} {extra : Nat} {p s : ObjectId} {m : Machine σ}
  {os : List ObjectId} (lineage : m.context.Lineage (some s) os)
  (forwarding : Forwarding F table extra p s m)
  (room : m.context.depth + 2 ≤ m.context.maxDepth)

include lineage forwarding room

theorem agree_has (k : PropertyKey) : Agree F m (.has p k) (.has s k) := by
  obtain ⟨x, -, -, found, other, -⟩ := lineage.start
  have lineage' : (m.deeper 1).context.Lineage (some s) os := lineage.deeper _
  refine agree_of_answer forwarding (Nat.le_of_succ_le room) rfl rfl rfl _ (os.length + 3)
    (fun fuel => ?_) fun fuel => issue_has lineage k (by omega)
  exact (has_forwarded (forwarding.deeper 1) room found other (fuel + os.length + 1) k).trans
    (issue_has lineage' k (by omega))

theorem agree_hasOwn (k : PropertyKey) : Agree F m (.hasOwn p k) (.hasOwn s k) := by
  obtain ⟨x, -, -, found, other, -⟩ := lineage.start
  refine agree_of_answer forwarding (Nat.le_of_succ_le room) rfl rfl rfl _ 2 (fun fuel => ?_)
    fun fuel => issue_ordinary (fuel + 1) rfl found other
  exact hasOwn_forwarded (forwarding.deeper 1) room found other fuel k

theorem agree_enumerate (listed : List PropertyKey) :
    Agree F m (.enumerate p listed) (.enumerate s listed) := by
  obtain ⟨x, -, -, found, other, -⟩ := lineage.start
  refine agree_of_answer forwarding (Nat.le_of_succ_le room) rfl rfl rfl
    ({ keys := listed ++ m.context.enumerated os [] } : Listing) (os.length + 3)
    (fun fuel => ?_) fun fuel => ?_
  · rw [← m.context.enumerated_level (m.context.depth + 1)]
    exact enumerate_forwarded (forwarding.deeper 1) room found other (lineage.deeper _) listed
      (Nat.le_add_left os.length fuel)
  · have direct : issue F (fuel + os.length + 2 + 1) (.enumerate s listed) m = _ :=
      issue_ordinary (fuel + os.length + 2) rfl found other
    refine direct.trans ((congrFun (Program.run_ask _ _) m).trans ?_)
    exact answer_enumerateFrom lineage (fun _ _ => List.not_mem_nil) [] listed (by omega)

theorem agree_ownEnumerableKeys (listed : List PropertyKey) :
    Agree F m (.ownEnumerableKeys p listed) (.ownEnumerableKeys s listed) := by
  obtain ⟨x, -, -, found, other, -⟩ := lineage.start
  refine agree_of_answer forwarding (Nat.le_of_succ_le room) rfl rfl rfl _ 2 (fun fuel => ?_)
    fun fuel => issue_ordinary (fuel + 1) rfl found other
  exact ownEnumerableKeys_forwarded (forwarding.deeper 1) room found other fuel listed

theorem issue_get_forwarded (k : PropertyKey) (receiver : Value) (fuel : Nat) :
    issue F (fuel + 3) (.get p receiver k) m =
      (issue F (fuel + 3) (.get s receiver k)).nested 1 m := by
  obtain ⟨x, -, -, found, other, -⟩ := lineage.start
  rw [issue_derived forwarding (Nat.le_of_succ_le room) rfl rfl rfl]
  exact Run.nested_congr (get_forwarded (forwarding.deeper 1) room found other fuel receiver k)

theorem agree_get {k : PropertyKey}
    (ungettable : ∀ d, m.context.nearest? os k = some d → d.getter? = none) (receiver : Value) :
    Agree F m (.get p receiver k) (.get s receiver k) := by
  have lineage' : (m.deeper 1).context.Lineage (some s) os := lineage.deeper _
  refine ⟨.ok (quietValue (m.context.nearest? os k)), m, os.length + 3, fun fuel more => ?_⟩
  obtain ⟨fuel, rfl⟩ := Nat.exists_eq_add_of_le' more
  rw [← Nat.add_assoc]
  constructor
  · rw [issue_get_forwarded lineage forwarding room]
    refine (Run.nested_of_ok (issue_get lineage' ungettable receiver (by omega))).trans ?_
    rw [Machine.shallower_deeper]
    rfl
  · exact issue_get lineage ungettable receiver (by omega)

theorem agree_set {k : PropertyKey}
    (data : ∀ o ∈ os, ∀ own, m.context.ownDescriptor? o k = some own → own.isAccessor = false)
    (v : Value) : Agree F m (.set p k v (.object p)) (.set s k v (.object s)) := by
  obtain ⟨x, -, -, found, other, -⟩ := lineage.start
  have lineage' : (m.deeper 1).context.Lineage (some s) os := lineage.deeper _
  obtain ⟨steps, writable, settles, below⟩ :=
    set_forwarded (forwarding.deeper 1) room found other (lineage'.plain data) v
  obtain ⟨⟨out, c⟩, result⟩ :=
    Option.isSome_iff_exists.1 (decided_isSome s k v writable m.context)
  have decided : Run.update (Except.ok <$> decided s k v writable) m =
      .ok ((.ok out : Fallible Outcome), ⟨c, m.state⟩) := by
    rw [Run.update_map]
    exact Run.map_of_ok (Run.update_of_some result)
  -- The update that both come to does not look at the dispatch level it is made on.
  have level := (level_decided s k v writable).map (Except.ok (ε := Failed))
  refine ⟨.ok out, ⟨c, m.state⟩, 5 + steps, fun fuel more => ?_⟩
  obtain ⟨fuel, rfl⟩ := Nat.exists_eq_add_of_le' more
  constructor
  · rw [show fuel + (5 + steps) = fuel + 4 + steps + 1 by omega,
      issue_derived forwarding (Nat.le_of_succ_le room) rfl rfl rfl]
    exact (Run.nested_congr (below fuel)).trans
      ((congrFun (Run.nested_update 1 level) m).trans decided)
  · have stands := stands_of_chain F (fuel + 2) (.target found other) (by simp; omega) k
    rw [show fuel + (5 + steps) = fuel + 3 + 1 + steps + 1 by omega]
    exact (settles F (fuel + 3) m s rfl stands).trans decided

end

/-- A forwarding proxy agrees with the object it forwards to, if that is an ordinary object
on an ordinary prototype chain and two levels are left. A getter, if there is one, runs
one level further down than it does on the object. -/
theorem forwarding_agrees (F : Foreign σ) {m : Machine σ} {table : TrapTable} {extra : Nat}
    {p s : ObjectId} {os : List ObjectId} (lineage : m.context.Lineage (some s) os)
    (forwarding : Forwarding F table extra p s m)
    (room : m.context.depth + 2 ≤ m.context.maxDepth) :
    (∀ k, Agree F m (.has p k) (.has s k)) ∧
    (∀ k, Agree F m (.hasOwn p k) (.hasOwn s k)) ∧
    (∀ listed, Agree F m (.enumerate p listed) (.enumerate s listed)) ∧
    (∀ listed, Agree F m (.ownEnumerableKeys p listed) (.ownEnumerableKeys s listed)) ∧
    (∀ k receiver fuel, issue F (fuel + 3) (.get p receiver k) m =
      (issue F (fuel + 3) (.get s receiver k)).nested 1 m) ∧
    (∀ k receiver, (∀ d, m.context.nearest? os k = some d → d.getter? = none) →
      Agree F m (.get p receiver k) (.get s receiver k)) ∧
    (∀ k v, (∀ o ∈ os, ∀ own, m.context.ownDescriptor? o k = some own → own.isAccessor = false) →
      Agree F m (.set p k v (.object p)) (.set s k v (.object s))) :=
  ⟨agree_has lineage forwarding room, agree_hasOwn lineage forwarding room,
    agree_enumerate lineage forwarding room, agree_ownEnumerableKeys lineage forwarding room,
    issue_get_forwarded lineage forwarding room,
    fun _ receiver ungettable => agree_get lineage forwarding room ungettable receiver,
    fun _ v data => agree_set lineage forwarding room data v⟩

end Engine

/-! Traps that forward: the flat entry points do it for one property, and the own keys are
listed as they are on the other object. -/

def forwardTo (t : ObjectId) : {s : Shape} → Op s → s.Out → Program σ (Reply s)
  | _, .getOwnProperty _ k, (out : Flattened Descriptor) => do
    let (ok, out) ← Boundary.getOwnProperty .current t k ⟨some out.value, some out.isNone⟩
    return ⟨ok, out.content?.getD .absent⟩
  | _, .defineProperty _ k d, (out : Outcome) => do
    let (ok, written) ← Boundary.defineProperty .current t k (some d) (some out)
    return ⟨ok, written.getD out⟩
  | _, .ownKeys _ _, (out : List PropertyKey) =>
    (fun l => ⟨!l.failed, l.keys⟩) <$> Program.ownKeys t out
  | _, _, out => return ⟨true, out⟩

theorem forwardTo_reissues {s : Shape} {op : Op s} (t : ObjectId)
    (forwarded : op.slot ∈ Slot.forwarded) :
    (Reply.toAnswer <$> forwardTo t op s.initial : Program σ s.Answer) =
      Program.perform (op.redirect t) := by
  cases op with
  | getOwnProperty o k =>
    refine Program.ask_congr (r := .perform (.getOwnProperty t k)) fun x => ?_
    rcases x with _ | _ | d <;> rfl
  | defineProperty o k d =>
    refine Program.ask_congr (r := .perform (.defineProperty t k d)) fun x => ?_
    rcases x with _ | outcome <;> rfl
  | ownKeys o listed =>
    refine Program.ask_congr (r := .perform (.ownKeys t listed)) fun x => ?_
    rcases x with ⟨keys, _ | _⟩ <;> rfl
  | _ => simp [Op.slot, Slot.forwarded] at forwarded

/-- Names the function that reads the second property of its receiver, however that ends, and
answers a new object. -/
def digging : FunctionId := ⟨0⟩

/-- Names the function that answers the dispatch depth it runs at. -/
def sounding : FunctionId := ⟨1⟩

def mirror : Foreign Unit :=
  { Foreign.idle with
    trap := fun _ op out => do
      match (← Program.context).target? op.subject with
      | some t => forwardTo t op out
      | none => return ⟨false, out⟩
    function := fun code this _ => do
      if code = sounding then
        return .ok (.int32 (.ofNat (← Program.context).depth))
      if let some o := this.asObject? then
        discard <| (Attempt.get o this (.index 1)).run
      return .ok (.object (← Program.newObject none)) }

/-- An object with a property and with a getter, and a proxy that forwards to it. -/
def watched (code : FunctionId) : Update (ObjectId × ObjectId) := do
  let s ← Update.newObject none
  let getter ← Update.newFunction code "getter"
  discard <| Update.defineStored s (.index 0) (.ofData .null)
  discard <| Update.defineStored s (.index 1) (.ofAccessor (some getter) none .data)
  let p ← Update.newProxy (.traps ⟨⟨0⟩, Slot.forwarded⟩ 0 .plain) (.object s) none {}
  return (p, s)

namespace Engine

theorem forwarding_mirror {id : TableId} {extra : Nat} {p s : ObjectId} {m : Machine Unit}
    (handler : m.context.handler? p = some (.traps ⟨id, Slot.forwarded⟩ extra .plain))
    (target : m.context.target? p = some s)
    (prototype : m.context.storedPrototype p = m.context.storedPrototype s) :
    Forwarding mirror ⟨id, Slot.forwarded⟩ extra p s m := by
  refine ⟨handler, fun slot => List.contains_iff_mem, prototype, ?_⟩
  intro s' op aimed forwarded fuel m' _ proxy
  have target' : m'.context.target? op.subject = some s := by
    rw [aimed, Context.target?, Context.private?, proxy]
    exact target
  rw [← run_perform, ← forwardTo_reissues s forwarded]
  show (Reply.toAnswer <$> match m'.context.target? op.subject with
    | some t => forwardTo t op s'.initial
    | none => return ⟨false, s'.initial⟩).run _ m' = _
  rw [target']

theorem watched_agrees : ∃ p s c, watched digging (Context.create {}) = some ((p, s), c) ∧
    Agree mirror ⟨c, ()⟩ (.has p (.index 1)) (.has s (.index 1)) ∧
    Agree mirror ⟨c, ()⟩ (.enumerate p []) (.enumerate s []) ∧
    Agree mirror ⟨c, ()⟩ (.set p (.index 0) .undefined (.object p))
      (.set s (.index 0) .undefined (.object s)) := by
  obtain ⟨⟨⟨p, s⟩, c⟩, ran⟩ : ∃ r, watched digging (Context.create {}) = some r := ⟨_, rfl⟩
  have start : c.Lineage (some s) [s] := by
    cases ran
    exact .next rfl rfl .ends
  have forwarding : Forwarding mirror ⟨⟨0⟩, Slot.forwarded⟩ 0 p s ⟨c, ()⟩ := by
    cases ran
    exact forwarding_mirror rfl rfl rfl
  have room : c.depth + 2 ≤ c.maxDepth := by
    cases ran
    decide
  have data : ∀ o ∈ [s], ∀ own, c.ownDescriptor? o (.index 0) = some own →
      own.isAccessor = false := by
    cases ran
    rintro o listed own here
    cases List.mem_singleton.1 listed
    cases here
    rfl
  obtain ⟨has, -, enumerate, -, -, -, set⟩ := forwarding_agrees mirror start forwarding room
  exact ⟨p, s, c, ran, has _, enumerate _, set _ _ data⟩

def watching (code : FunctionId) : (ObjectId × ObjectId) × Context :=
  (watched code (Context.create { maxDispatchDepth := 8 })).getD default

/-- What reading the second property of `o` on behalf of the object answers. -/
def glimpse (code : FunctionId) (fuel : Nat) (o : ObjectId) : Option Value :=
  let ((_, s), c) := watching code
  match issue mirror fuel (.get o (.object s) (.index 1)) ⟨c, ()⟩ with
  | .ok (.ok v, _) => some v
  | _ => none

theorem issue_of_glimpse {code : FunctionId} {fuel : Nat} {o : ObjectId} {v : Value}
    (found : glimpse code fuel o = some v) : ∃ m,
      issue mirror fuel (.get o (.object (watching code).1.2) (.index 1)) ⟨(watching code).2, ()⟩ =
        .ok (.ok v, m) := by
  unfold glimpse at found
  dsimp only at found
  split at found
  next ran =>
    cases found
    exact ⟨_, ran⟩
  next => cases found

/-- The getter tells the proxy from the object, with eight levels left. -/
def TellsApart (code : FunctionId) : Prop :=
  let ((p, s), c) := watching code
  c.Lineage (some s) [s] ∧ Forwarding mirror ⟨⟨0⟩, Slot.forwarded⟩ 0 p s ⟨c, ()⟩ ∧
  c.depth + 8 ≤ c.maxDepth ∧
  ¬ Agree mirror ⟨c, ()⟩ (.get p (.object s) (.index 1)) (.get s (.object s) (.index 1))

theorem disagree_of_glimpse {code : FunctionId} {fuel : Nat} {v w : Value}
    (through : glimpse code fuel (watching code).1.1 = some v)
    (direct : glimpse code fuel (watching code).1.2 = some w) (apart : v ≠ w) :
    ¬ Agree mirror ⟨(watching code).2, ()⟩
      (.get (watching code).1.1 (.object (watching code).1.2) (.index 1))
      (.get (watching code).1.2 (.object (watching code).1.2) (.index 1)) := by
  intro agree
  obtain ⟨_, first⟩ := issue_of_glimpse through
  obtain ⟨_, second⟩ := issue_of_glimpse direct
  exact apart (Except.ok.inj (agree.same first second))

/-- A getter that reads itself again goes down to the depth limit and makes an object on every
level, one fewer through the proxy. One that looks at the dispatch depth sees one level more. -/
theorem getter_tells : TellsApart digging ∧ TellsApart sounding := by
  constructor
  · have through : glimpse digging 40 (watching digging).1.1 = some (.object (.first 13)) := by
      decide +kernel
    have direct : glimpse digging 40 (watching digging).1.2 = some (.object (.first 14)) := by
      decide +kernel
    exact ⟨.next rfl rfl .ends, forwarding_mirror rfl rfl rfl, Nat.le_refl 8,
      disagree_of_glimpse through direct (by decide)⟩
  · have through : glimpse sounding 40 (watching sounding).1.1 = some (.int32 2) := by
      decide +kernel
    have direct : glimpse sounding 40 (watching sounding).1.2 = some (.int32 1) := by
      decide +kernel
    exact ⟨.next rfl rfl .ends, forwarding_mirror rfl rfl rfl, Nat.le_refl 8,
      disagree_of_glimpse through direct (by decide)⟩

end Engine

end ProxyEngine
