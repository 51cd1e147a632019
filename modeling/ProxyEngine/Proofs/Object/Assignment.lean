import ProxyEngine.Proofs.Object.Lookup
import ProxyEngine.Proofs.Context.Rewriting

/-! Assignment on ordinary objects. What an assignment comes to can be read off two
objects, which need not know each other: the nearest one on the chain that has the
property, and the receiver. The chain is left as soon as that object is found, and the
value is stored by a redefinition of the receiver's property that names the value only. -/

namespace ProxyEngine

variable {σ : Type}

/-- What an assignment comes to. -/
inductive Assignment where
  | refuse (why : Refusal)
  | call (setter : ObjectId)
  | store (o : ObjectId) (p : Property)
  deriving DecidableEq

namespace Context

def assignmentTo (c : Context) (k : PropertyKey) (v receiver : Value) : Assignment :=
  match receiver.asObject? with
  | none => .refuse .notObjectReceiver
  | some r =>
    match c.ownProperty? r k with
    | some (.accessor ..) => .refuse .cantRedefineProperty
    | some (.data _ attrs) =>
      if attrs.writable then .store r (.data v attrs) else .refuse .readOnly
    | none => if c.storedExtensible r then .store r (.data v .data) else .refuse .notExtensible

def assignment (c : Context) (os : List ObjectId) (k : PropertyKey) (v receiver : Value) :
    Assignment :=
  match os.findSome? fun o => c.ownProperty? o k with
  | some (.accessor _ (some f) _) => .call f
  | some (.accessor _ none _) => .refuse .getterOnly
  | some (.data _ attrs) =>
    if attrs.writable then c.assignmentTo k v receiver else .refuse .readOnly
  | none => c.assignmentTo k v receiver

/-- `c'` differs from `c` in the property of `o` under `k`, which is `p` and stands in the
place that `k` had, or last. -/
structure Stores (c : Context) (o : ObjectId) (k : PropertyKey) (p : Property) (c' : Context) :
    Prop where
  rest : c' = { c with heap := { c.heap with slots := c'.heap.slots } }
  others : ∀ q, q ≠ o → c'.get? q = c.get? q
  object : ∃ x t, c.get? o = some x ∧ c'.get? o = some { x with properties := t } ∧
    (∀ k', t.get? k' = if k' = k then some p else x.properties.get? k') ∧
    t.keys = if x.properties.contains k then x.properties.keys else x.properties.keys ++ [k]

variable {c : Context} {o : ObjectId} {os : List ObjectId} {x : Object}

theorem nearest?_eq (c : Context) (os : List ObjectId) (k : PropertyKey) :
    c.nearest? os k = (os.findSome? fun o => c.ownProperty? o k).map Property.toDescriptor :=
  List.map_findSome?.symm

theorem stores_insert (found : c.get? o = some x) (k : PropertyKey) (p : Property) :
    c.Stores o k p { c with
      heap := c.heap.modify o fun x => { x with properties := x.properties.insert k p } } where
  rest := by
    unfold Heap.modify
    split <;> rfl
  others q other := by rw [get?, Heap.get?_modify, if_neg other, get?]
  object := by
    refine ⟨x, x.properties.insert k p, found, ?_, fun k' => x.properties.get?_insert k k' p, ?_⟩
    · rw [get?, Heap.get?_modify, if_pos rfl, show c.heap.get? o = some x from found]
      rfl
    · cases known : x.properties.contains k with
      | true => exact PropertyTable.keys_insert_of_contains known p
      | false => exact PropertyTable.keys_insert_of_fresh known p

theorem Lineage.ascent {q : Option ObjectId} (lineage : c.Lineage q os) : c.Ascent q os none := by
  induction lineage with
  | ends => exact .null
  | next found other _ ih =>
    exact .next (onward?_eq_some.2 ⟨_, found, by simp [Object.isProxy_eq, other], rfl⟩) ih

end Context

namespace Property

/-- Naming only the value, redefinition replaces the value of a writable property whatever it
was, and nothing else. -/
theorem redefine_valueOnly {w v : Value} {attrs : Attributes} (writable : attrs.writable = true) :
    (data w attrs).redefine (.valueOnly v) = .ok (data v attrs) := by
  have unrefused : (data w attrs).refusal? (.valueOnly v) = none := by
    simp [refusal?, fixedRefusal?, writable, Descriptor.valueOnly, Descriptor.isGeneric,
      Descriptor.isAccessor, Descriptor.isData, isAccessor]
  rw [redefine, unrefused]
  rfl

end Property

namespace Update

open Context

variable {c : Context} {r : ObjectId} {k : PropertyKey} {v receiver : Value} {x : Object}

theorem assignStored_eq (found : c.get? r = some x) (aimed : receiver.asObject? = some r) :
    match c.assignmentTo k v receiver with
    | .refuse why => assignStored r k v c = some (.refused why, c)
    | .call _ => False
    | .store o p => o = r ∧ ∃ c', c.Stores o k p c' ∧ assignStored r k v c = some (.ok, c') := by
  have own : c.ownProperty? r k = x.properties.get? k := by rw [ownProperty?, found]; rfl
  have extensible : c.storedExtensible r = x.extensible := by rw [storedExtensible, found]; rfl
  unfold assignmentTo assignStored
  rw [get_bind, ownDescriptor?]
  simp only [aimed, own, extensible]
  cases stored : x.properties.get? k with
  | none =>
    have defined := defineStored_fresh (d := .ofData v) found stored
    cases ext : x.extensible with
    | false => exact defined.trans (if_neg (by simp [ext]))
    | true => exact ⟨rfl, _, stores_insert found k _, defined.trans (if_pos ext)⟩
  | some current =>
    rcases current with ⟨w, ⟨_ | _, e, d⟩⟩ | ⟨g, s, attrs⟩
    · rfl
    · refine ⟨rfl, _, stores_insert found k _, ?_⟩
      exact defineStored_redefined found stored (Property.redefine_valueOnly rfl)
    · rfl

def assignTo (receiver : Value) (k : PropertyKey) (v : Value) : Update Outcome :=
  match receiver.asObject? with
  | none => return .refused .notObjectReceiver
  | some r => assignStored r k v

theorem assignTo_eq (live : ∀ r, receiver.asObject? = some r → ∃ x, c.get? r = some x) :
    match c.assignmentTo k v receiver with
    | .refuse why => assignTo receiver k v c = some (.refused why, c)
    | .call _ => False
    | .store o p => receiver.asObject? = some o ∧ ∃ c', c.Stores o k p c' ∧
        assignTo receiver k v c = some (.ok, c') := by
  cases aimed : receiver.asObject? with
  | none => simp only [assignmentTo, assignTo, aimed]; rfl
  | some r =>
    obtain ⟨x, found⟩ := live r aimed
    have stored := assignStored_eq (k := k) (v := v) found aimed
    unfold assignTo
    rw [aimed]
    generalize c.assignmentTo k v receiver = a at stored ⊢
    cases a with
    | refuse => exact stored
    | call => exact stored
    | store o p =>
      obtain ⟨rfl, stored⟩ := stored
      exact ⟨rfl, stored⟩

end Update

namespace Engine

open Context

variable {F : Foreign σ} {m : Machine σ} {o r f : ObjectId} {os : List ObjectId}
  {k : PropertyKey} {v receiver : Value} {x : Object}

theorem stands_self (fuel : Nat) (found : m.context.get? r = some x) (other : x.proxy? = none)
    (k : PropertyKey) : Stands F (fuel + 2) r r k m where
  own := issue_getOwnProperty (fuel + 1) found other
  define d := issue_defineProperty fuel d found other

theorem run_assign_setter (fuel : Nat) (g : Option ObjectId) (attrs : Attributes) :
    (Ordinary.assign (.ofAccessor g (some f) attrs) k v receiver).run.run (Engine.answer F fuel) =
      (Except.map fun _ => Outcome.ok) <$> issue F fuel (.call f receiver [v]) := by
  have assigned : (Ordinary.assign (σ := σ) (.ofAccessor g (some f) attrs) k v receiver).run =
      (Except.map fun _ => Outcome.ok) <$> Program.perform (.call f receiver [v]) :=
    congrArg (Program.ask _) (funext fun answered => by cases answered <;> rfl)
  rw [assigned]
  exact (Program.run_map _ _ _).trans (congrArg _ (run_perform fuel _))

theorem run_assign_writable {own : Descriptor} (fuel : Nat) (data : own.isAccessor = false)
    (writable : own.isWritable = true)
    (standing : ∀ r, receiver.asObject? = some r →
      ∃ x, m.context.get? r = some x ∧ x.proxy? = none) :
    (Ordinary.assign own k v receiver).run.run (Engine.answer F (fuel + 2)) m =
      Run.update (Except.ok <$> Update.assignTo receiver k v) m := by
  unfold Ordinary.assign Update.assignTo
  rw [if_neg (by simp [data]), if_neg (by simp [writable])]
  cases aimed : receiver.asObject? with
  | none => rfl
  | some r =>
    obtain ⟨x, found, other⟩ := standing r aimed
    exact writeTo_stands (stands_self fuel found other k) v

/-- What the runs of an assignment, one for each amount of fuel, do: refused, they change
nothing; a setter is called and answers for the assignment; a property is stored and nothing
else happens. -/
def Describes (a : Assignment) (F : Foreign σ) (k : PropertyKey) (v receiver : Value)
    (m : Machine σ) (run : Nat → Except Stop (Fallible Outcome × Machine σ)) : Prop :=
  match a with
  | .refuse why => ∀ fuel, run fuel = .ok (.ok (.refused why), m)
  | .call f =>
    ∀ fuel, run fuel =
      ((Except.map fun _ => Outcome.ok) <$> issue F (fuel + 2) (.call f receiver [v])) m
  | .store r p =>
    receiver.asObject? = some r ∧ ∃ c', m.context.Stores r k p c' ∧
      ∀ fuel, run fuel = .ok (.ok .ok, { m with context := c' })

theorem describes_assignmentTo {run : Nat → Except Stop (Fallible Outcome × Machine σ)}
    (live : ∀ r, receiver.asObject? = some r → ∃ x, m.context.get? r = some x)
    (runs : ∀ fuel, run fuel = Run.update (Except.ok <$> Update.assignTo receiver k v) m) :
    Describes (m.context.assignmentTo k v receiver) F k v receiver m run := by
  have decided := Update.assignTo_eq (k := k) (v := v) live
  have ends {out : Outcome} {c' : Context}
      (ran : Update.assignTo receiver k v m.context = some (out, c')) (fuel : Nat) :
      run fuel = .ok (.ok out, { m with context := c' }) := by
    rw [runs fuel, Run.update_map]
    exact Run.map_of_ok (Run.update_of_some ran)
  generalize m.context.assignmentTo k v receiver = a at decided ⊢
  cases a with
  | refuse why => exact ends decided
  | call f => exact decided.elim
  | store r p =>
    obtain ⟨aimed, c', stores, ran⟩ := decided
    exact ⟨aimed, c', stores, ends ran⟩

/-- An assignment among ordinary objects does what the nearest property and the receiver say,
after as many steps as it takes to reach that property. -/
theorem set_described (F : Foreign σ) (lineage : m.context.Lineage (some o) os)
    (k : PropertyKey) (v : Value)
    (standing : ∀ r, receiver.asObject? = some r →
      ∃ x, m.context.get? r = some x ∧ x.proxy? = none) :
    ∃ n ≤ os.length, Describes (m.context.assignment os k v receiver) F k v receiver m
      fun fuel => issue F (fuel + n + 2) (.set o k v receiver) m := by
  obtain ⟨n, short, climbs⟩ := issue_ascent (F := F) (.set k v receiver) lineage.ascent
  have starts (fuel : Nat) : issue F (fuel + n + 2) (.set o k v receiver) m =
      (((m.context.nearest? os k).elim (Ordinary.assign (.ofData .undefined) k v receiver)
        fun d => Ordinary.assign d k v receiver).run).run (Engine.answer F (fuel + 2)) m := by
    rw [show fuel + n + 2 = fuel + 1 + n + 1 by omega]
    refine (climbs (fuel + 1)).trans ?_
    unfold Lookup.after
    rw [Lookup.key]
    cases m.context.nearest? os k <;> rfl
  have live (r : ObjectId) (aimed : receiver.asObject? = some r) :=
    (standing r aimed).imp fun _ => And.left
  refine ⟨n, short, ?_⟩
  rw [nearest?_eq] at starts
  unfold assignment
  cases nearest : os.findSome? fun o => m.context.ownProperty? o k with
  | none =>
    rw [nearest] at starts
    exact describes_assignmentTo live fun fuel =>
      (starts fuel).trans (run_assign_writable fuel rfl rfl standing)
  | some p =>
    rw [nearest] at starts
    rcases p with ⟨w, ⟨_ | _, e, d⟩⟩ | ⟨g, _ | f, attrs⟩
    · exact starts
    · exact describes_assignmentTo live fun fuel =>
        (starts fuel).trans (run_assign_writable fuel rfl rfl standing)
    · exact starts
    · exact fun fuel => (starts fuel).trans (congrFun (run_assign_setter (fuel + 2) g attrs) m)

def inheriting : Update (ObjectId × ObjectId) := do
  let p ← Update.newObject none
  discard <| Update.defineStored p (.index 0) (.ofData .null)
  let o ← Update.newObject (some p)
  return (o, p)

theorem inheriting_described : ∃ o p c, inheriting (Context.create {}) = some ((o, p), c) ∧
    c.Lineage (some o) [o, p] ∧
    c.assignment [o, p] (.index 0) .undefined (.object o) = .store o (.data .undefined .data) ∧
    ∃ n ≤ 2, Describes (.store o (.data .undefined .data)) Foreign.idle (.index 0) .undefined
      (.object o) ⟨c, ()⟩ fun fuel =>
        issue Foreign.idle (fuel + n + 2) (.set o (.index 0) .undefined (.object o)) ⟨c, ()⟩ := by
  obtain ⟨⟨⟨o, p⟩, c⟩, ran⟩ : ∃ r, inheriting (Context.create {}) = some r := ⟨_, rfl⟩
  have lineage : c.Lineage (some o) [o, p] := by
    cases ran
    exact .next rfl rfl (.next rfl rfl .ends)
  have comes : c.assignment [o, p] (.index 0) .undefined (.object o) =
      .store o (.data .undefined .data) := by
    cases ran
    rfl
  have standing (r : ObjectId) (aimed : (Value.object o).asObject? = some r) :
      ∃ x, c.get? r = some x ∧ x.proxy? = none := by
    rw [Value.asObject?_object] at aimed
    obtain rfl := Option.some.inj aimed
    exact lineage.ordinary (.head _)
  have described := set_described (m := ⟨c, ()⟩) Foreign.idle lineage (.index 0) .undefined standing
  rw [comes] at described
  exact ⟨o, p, c, ran, lineage, comes, described⟩

end Engine

end ProxyEngine
