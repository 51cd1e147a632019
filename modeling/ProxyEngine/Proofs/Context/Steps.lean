import Mathlib.Logic.Relation
import ProxyEngine.Engine.Collector
import ProxyEngine.Proofs.Heap.Validity

/-! The steps a context can take, told once and for all.
An action is made of edits: an allocation, a change of one live object or of one
of the other fields. Besides edits a run only enters and leaves dispatch levels
and sweeps. An invariant is therefore checked against `Context.Edit`,
`Object.Change` and `Context.Step`, never against the operations themselves. -/

namespace ProxyEngine

/-- How the object `o`, which is `x` on the context `c`, can change. -/
inductive Object.Change (c : Context) (o : ObjectId) (x : Object) : Object → Prop
  | redefine {k : PropertyKey} {current p : Property} {d : Descriptor} :
      x.properties.get? k = some current → current.redefine d = .ok p →
      Change c o x { x with properties := x.properties.insert k p }
  | create {k : PropertyKey} (d : Descriptor) :
      x.properties.get? k = none → x.extensible = true →
      Change c o x { x with properties := x.properties.insert k (.ofDescriptor d) }
  | delete {k : PropertyKey} {p : Property} :
      x.properties.get? k = some p → p.attributes.configurable = true →
      Change c o x { x with properties := x.properties.erase k }
  | prototype {proto : Option ObjectId} :
      x.prototype ≠ proto → x.immutablePrototype = false → x.extensible = true →
      c.prototypeWalkMeets o (c.heap.slotCount + 1) proto = false →
      Change c o x { x with prototype := proto }
  | extensible (b : Bool) : Change c o x { x with extensible := b }
  | fixPrototype : Change c o x { x with immutablePrototype := true }
  | setPrivate {s : ProxyState} (v : Value) :
      x.kind = .proxy s → Change c o x { x with kind := .proxy { s with privateValue := v } }
  | setReserved {s : ProxyState} (n : Nat) (v : Value) :
      x.kind = .proxy s →
      Change c o x { x with kind := .proxy { s with reserved := s.reserved.set n v } }

namespace Context

inductive Edit : Context → Context → Prop
  | alloc {c : Context} {o : ObjectId} {heap : Heap} (kind : ObjectKind)
      (prototype : Option ObjectId) :
      c.heap.alloc? { kind, prototype } = some (o, heap) → Edit c { c with heap }
  | change {c : Context} {o : ObjectId} {x : Object} (f : Object → Object) :
      c.get? o = some x → x.Change c o (f x) → Edit c { c with heap := c.heap.modify o f }
  | intern {c : Context} (s : String) : Edit c { c with atoms := (c.atoms.intern s).2 }
  | symbol {c : Context} (d : Option Atom) : Edit c { c with symbols := c.symbols ++ [d] }
  | pending {c : Context} (v : Option Value) : Edit c { c with pending := v }
  | roots {c : Context} (rs : List (ObjectId × UInt32)) : Edit c { c with roots := rs }
  | jobQueue {c : Context} (q : Option JobQueue) : Edit c { c with jobQueue := q }
  | principals {c : Context} (p : Option Principals) : Edit c { c with principals := p }

def Edits : Context → Context → Prop :=
  Relation.ReflTransGen Edit

/-- An edit that makes no object extensible again. -/
inductive Tightening : Context → Context → Prop
  | alloc {c : Context} {o : ObjectId} {heap : Heap} (kind : ObjectKind)
      (prototype : Option ObjectId) :
      c.heap.alloc? { kind, prototype } = some (o, heap) → Tightening c { c with heap }
  | change {c : Context} {o : ObjectId} {x : Object} (f : Object → Object) :
      c.get? o = some x → x.Change c o (f x) →
      (x.extensible = false → (f x).extensible = false) →
      Tightening c { c with heap := c.heap.modify o f }
  | rest {c c' : Context} : c.Edit c' → c'.heap = c.heap → Tightening c c'

def Tightens : Context → Context → Prop :=
  Relation.ReflTransGen Tightening

inductive Step : Context → Context → Prop
  | edit {c c' : Context} : c.Edit c' → Step c c'
  | enter {c : Context} : c.depth < c.maxDepth → Step c { c with depth := c.depth + 1 }
  | leave {c : Context} : Step c { c with depth := c.depth - 1 }
  | sweep {c : Context} (dead : List ObjectId) (marked : Nat) :
      Step c ((c.releaseAll dead).2.recordCollection marked (c.releaseAll dead).1)

def Reaches : Context → Context → Prop :=
  Relation.ReflTransGen Step

/-- Some run brings a fresh context here. -/
def Reachable (c : Context) : Prop :=
  ∃ options, (create options).Reaches c

instance : Std.Refl Edits := ⟨fun _ => Relation.ReflTransGen.refl⟩

instance : IsTrans Context Edits := ⟨fun _ _ _ => Relation.ReflTransGen.trans⟩

instance : Std.Refl Tightens := ⟨fun _ => Relation.ReflTransGen.refl⟩

instance : IsTrans Context Tightens := ⟨fun _ _ _ => Relation.ReflTransGen.trans⟩

variable {c c' : Context}

theorem Edits.refl (c : Context) : c.Edits c :=
  Relation.ReflTransGen.refl

theorem Edit.edits (edit : c.Edit c') : c.Edits c' :=
  .single edit

theorem Tightening.edit (tightening : c.Tightening c') : c.Edit c' := by
  cases tightening with
  | alloc kind prototype stored => exact .alloc kind prototype stored
  | change f found change _ => exact .change f found change
  | rest edit _ => exact edit

theorem Tightens.refl (c : Context) : c.Tightens c :=
  Relation.ReflTransGen.refl

theorem Tightening.tightens (tightening : c.Tightening c') : c.Tightens c' :=
  .single tightening

theorem Tightens.edits (tightens : c.Tightens c') : c.Edits c' :=
  Relation.ReflTransGen.mono (fun _ _ => Tightening.edit) _ _ tightens

theorem Step.reaches (step : c.Step c') : c.Reaches c' :=
  .single step

theorem Edits.reaches (edits : c.Edits c') : c.Reaches c' :=
  Relation.ReflTransGen.mono (fun _ _ => Step.edit) _ _ edits

theorem Reachable.trans (reachable : c.Reachable) (more : c.Reaches c') : c'.Reachable :=
  reachable.imp fun _ first => Relation.ReflTransGen.trans first more

end Context

namespace Update

variable {α β : Type}

theorem bind_eq_some {u : Update α} {f : α → Update β} {c c' : Context} {b : β} :
    (u >>= f) c = some (b, c') ↔ ∃ a c₁, u c = some (a, c₁) ∧ f a c₁ = some (b, c') := by
  show (u c).bind (fun p => f p.1 p.2) = _ ↔ _
  simp [Option.bind_eq_some_iff]

def Relates (R : Context → Context → Prop) (u : Update α) : Prop :=
  ∀ ⦃c a c'⦄, u c = some (a, c') → R c c'

/-- The update only makes edits. -/
def Edits (u : Update α) : Prop :=
  Relates Context.Edits u

/-- The update only makes edits, and none that makes an object extensible again. -/
def Tightens (u : Update α) : Prop :=
  Relates Context.Tightens u

section

variable {R : Context → Context → Prop} [Std.Refl R]

theorem Relates.pure (a : α) : Relates R (pure a) := by
  rintro c _ _ ⟨⟩
  exact Std.Refl.refl c

variable [IsTrans Context R]

omit [Std.Refl R] in
theorem Relates.bind {u : Update α} {f : α → Update β} (first : Relates R u)
    (rest : ∀ a, Relates R (f a)) : Relates R (u >>= f) := by
  intro c b c' ran
  obtain ⟨a, c₁, ran, more⟩ := bind_eq_some.1 ran
  exact IsTrans.trans _ _ _ (first ran) (rest a more)

theorem Relates.map {u : Update α} (relates : Relates R u) (f : α → β) : Relates R (f <$> u) := by
  rw [map_eq_pure_bind]
  exact relates.bind fun a => .pure _

end

theorem Tightens.edits {u : Update α} (tightens : Tightens u) : Edits u :=
  fun _ _ _ ran => (tightens ran).edits

theorem tightens_modify {f : Context → Context} (edit : ∀ c, Context.Edit c (f c))
    (heap : ∀ c, (f c).heap = c.heap) : Tightens (modify f : Update Unit) := by
  rintro c _ _ ⟨⟩
  exact (Context.Tightening.rest (edit c) (heap c)).tightens

theorem tightens_alloc (kind : ObjectKind) (prototype : Option ObjectId) :
    Tightens (alloc { kind, prototype }) := by
  intro c o c' ran
  obtain ⟨⟨o, heap⟩, stored, answer⟩ := Option.map_eq_some_iff.1 ran
  cases answer
  exact (Context.Tightening.alloc kind prototype stored).tightens

theorem tightens_intern (s : String) : Tightens (intern s) := by
  rintro c _ _ ⟨⟩
  exact (Context.Tightening.rest (.intern s) rfl).tightens

theorem tightens_newString (s : String) : Tightens (newString s) :=
  (tightens_intern s).map _

theorem tightens_key (name : String) : Tightens (key name) := by
  unfold key
  split
  · exact .pure _
  · exact (tightens_intern name).map _

theorem tightens_keyToValue (k : PropertyKey) : Tightens (keyToValue k) := by
  cases k with
  | index i => exact tightens_newString _
  | _ => exact .pure _

theorem tightens_newSymbol (description : Option String) : Tightens (newSymbol description) := by
  have last (d : Option Atom) : Tightens (modifyGet fun c =>
      ((⟨.ofNat c.symbols.length⟩ : SymbolId), { c with symbols := c.symbols ++ [d] })) := by
    rintro c _ _ ⟨⟩
    exact (Context.Tightening.rest (.symbol d) rfl).tightens
  cases description with
  | none => exact last none
  | some s => exact ((tightens_intern s).map some).bind last

theorem tightens_modifyObject {o : ObjectId} {f : Object → Object} {c c' : Context} {a : Unit}
    (ran : modifyObject o f c = some (a, c'))
    (change : ∀ x, c.get? o = some x → x.Change c o (f x))
    (tight : ∀ x : Object, x.extensible = false → (f x).extensible = false) :
    c.Tightens c' := by
  cases ran
  cases found : c.get? o with
  | none =>
    have same : c.heap.modify o f = c.heap := Heap.modify_of_dead found f
    simp only [same]
    exact .refl c
  | some x => exact (Context.Tightening.change f found (change x found) (tight x)).tightens

theorem tightens_defineStored (o : ObjectId) (k : PropertyKey) (d : Descriptor) :
    Tightens (defineStored o k d) := by
  intro c a c' ran
  unfold defineStored at ran
  obtain ⟨_, _, ⟨⟩, ran⟩ := bind_eq_some.1 ran
  cases found : c.get? o with
  | none =>
    rw [found] at ran
    cases ran
    exact .refl c
  | some x =>
    have self {y : Object} (same : c.get? o = some y) : y = x :=
      Option.some.inj (same.symm.trans found)
    cases stored : x.properties.get? k with
    | some current =>
      simp only [found, stored] at ran
      cases redefined : current.redefine d with
      | ok p =>
        rw [redefined] at ran
        obtain ⟨_, c₁, ran, ⟨⟩⟩ := bind_eq_some.1 ran
        refine tightens_modifyObject ran (fun y same => ?_) fun _ => id
        rw [self same]
        exact .redefine stored redefined
      | error r =>
        rw [redefined] at ran
        cases ran
        exact .refl c
    | none =>
      simp only [found, stored] at ran
      cases extensible : x.extensible with
      | true =>
        rw [extensible, if_pos rfl] at ran
        obtain ⟨_, c₁, ran, ⟨⟩⟩ := bind_eq_some.1 ran
        refine tightens_modifyObject ran (fun y same => ?_) fun _ => id
        rw [self same]
        exact .create d stored extensible
      | false =>
        rw [extensible] at ran
        cases ran
        exact .refl c

theorem tightens_deleteStored (o : ObjectId) (k : PropertyKey) : Tightens (deleteStored o k) := by
  intro c a c' ran
  unfold deleteStored at ran
  obtain ⟨_, _, ⟨⟩, ran⟩ := bind_eq_some.1 ran
  cases stored : c.ownProperty? o k with
  | none =>
    rw [stored] at ran
    cases ran
    exact .refl c
  | some p =>
    cases configurable : p.attributes.configurable with
    | true =>
      simp only [stored, configurable, if_true] at ran
      obtain ⟨_, c₁, ran, ⟨⟩⟩ := bind_eq_some.1 ran
      refine tightens_modifyObject ran (fun x found => ?_) fun _ => id
      unfold Context.ownProperty? at stored
      rw [found] at stored
      exact .delete stored configurable
    | false =>
      simp only [stored, configurable] at ran
      cases ran
      exact .refl c

theorem tightens_storePrototype (o : ObjectId) (proto : Option ObjectId) :
    Tightens (storePrototype o proto) := by
  intro c a c' ran
  unfold storePrototype at ran
  obtain ⟨_, _, ⟨⟩, ran⟩ := bind_eq_some.1 ran
  cases found : c.get? o with
  | none =>
    rw [found] at ran
    cases ran
    exact .refl c
  | some x =>
    simp only [found] at ran
    by_cases same : x.prototype = proto
    · rw [if_pos same] at ran
      cases ran
      exact .refl c
    · rw [if_neg same] at ran
      by_cases refused : (x.immutablePrototype || !x.extensible
          || c.prototypeWalkMeets o (c.heap.slotCount + 1) proto) = true
      · rw [if_pos refused] at ran
        cases ran
        exact .refl c
      · rw [if_neg refused] at ran
        obtain ⟨_, c₁, ran, ⟨⟩⟩ := bind_eq_some.1 ran
        refine tightens_modifyObject ran (fun y found' => ?_) fun _ => id
        obtain rfl := Option.some.inj (found.symm.trans found')
        simp only [Bool.or_eq_true, Bool.not_eq_true', not_or, Bool.not_eq_true,
          Bool.not_eq_false] at refused
        exact .prototype same refused.1.1 refused.1.2 refused.2

theorem tightens_storeExtensible (o : ObjectId) : Tightens (storeExtensible o false) :=
  fun _ _ _ ran => tightens_modifyObject ran (fun _ _ => .extensible false) fun _ _ => rfl

theorem edits_storeExtensible (o : ObjectId) (b : Bool) : Edits (storeExtensible o b) := by
  rintro c _ _ ⟨⟩
  cases found : c.get? o with
  | none =>
    have same : c.heap.modify o (fun x => { x with extensible := b }) = c.heap :=
      Heap.modify_of_dead found _
    simp only [same]
    exact .refl c
  | some x => exact (Context.Edit.change _ found (.extensible b)).edits

theorem tightens_fixPrototype (o : ObjectId) : Tightens (fixPrototype o) :=
  fun _ _ _ ran => tightens_modifyObject ran (fun _ _ => .fixPrototype) fun _ => id

theorem tightens_mapProxy {o : ObjectId} {f : ProxyState → ProxyState} {c c' : Context} {a : Unit}
    (ran : modifyObject o (Object.mapProxy f) c = some (a, c'))
    (change : ∀ (x : Object) s, x.kind = .proxy s → x.Change c o { x with kind := .proxy (f s) }) :
    c.Tightens c' := by
  cases ran
  cases found : c.get? o with
  | none =>
    have same : c.heap.modify o (Object.mapProxy f) = c.heap := Heap.modify_of_dead found _
    simp only [same]
    exact .refl c
  | some x =>
    by_cases proxy : ∃ s, x.kind = .proxy s
    · obtain ⟨s, kind⟩ := proxy
      have mapped : x.mapProxy f = { x with kind := .proxy (f s) } := by
        simp [Object.mapProxy, kind]
      have tight : x.extensible = false → (x.mapProxy f).extensible = false := by
        rw [mapped]
        exact id
      exact (Context.Tightening.change _ found (mapped ▸ change x s kind) tight).tightens
    · have fixed : x.mapProxy f = x := by
        unfold Object.mapProxy
        split
        next s kind => exact absurd ⟨s, kind⟩ proxy
        next => rfl
      have same : c.heap.modify o (Object.mapProxy f) = c.heap := Heap.modify_of_fixed found fixed
      simp only [same]
      exact .refl c

theorem tightens_setPrivate (o : ObjectId) (v : Value) : Tightens (setPrivate o v) := by
  intro c a c' ran
  obtain ⟨_, _, ⟨⟩, ran⟩ := bind_eq_some.1 ran
  obtain ⟨_, _, ran, ⟨⟩⟩ := bind_eq_some.1 ran
  exact tightens_mapProxy ran fun _ _ kind => .setPrivate v kind

theorem tightens_setReserved (o : ObjectId) (slot : Nat) (v : Value) :
    Tightens (setReserved o slot v) := by
  intro c a c' ran
  obtain ⟨_, _, ⟨⟩, ran⟩ := bind_eq_some.1 ran
  obtain ⟨_, _, ran, ⟨⟩⟩ := bind_eq_some.1 ran
  exact tightens_mapProxy ran fun _ _ kind => .setReserved slot v kind

theorem tightens_newNative (code : FunctionId) (name : String) (isConstructor : Bool) :
    Tightens (newNative code name isConstructor) :=
  (tightens_intern name).bind fun _ => tightens_alloc _ _

theorem tightens_newConstructor (code : FunctionId) (name : String) :
    Tightens (newConstructor code name) :=
  (tightens_newNative code name true).bind fun f =>
    (tightens_alloc .ordinary _).bind fun _ =>
      (tightens_key "prototype").bind fun k =>
        ((tightens_defineStored f k _).map _).bind fun _ => .pure f

theorem tightens_report (kind : ErrorKind) (message : String) : Tightens (report kind message) :=
  (tightens_alloc _ _).bind fun e =>
    (tightens_key "name").bind fun k =>
      (tightens_newString kind.name).bind fun _ =>
        ((tightens_defineStored e k _).map _).bind fun _ =>
          tightens_modify (fun _ => .pending (some (.object e))) fun _ => rfl

theorem tightens_removeRoot (o : ObjectId) : Tightens (removeRoot o) := by
  intro c a c' ran
  unfold removeRoot at ran
  obtain ⟨_, _, ⟨⟩, ran⟩ := bind_eq_some.1 ran
  cases found : c.roots.lookup o with
  | none =>
    rw [found] at ran
    cases ran
    exact .refl c
  | some n =>
    rw [found] at ran
    obtain ⟨_, _, ⟨⟩, ⟨⟩⟩ := bind_eq_some.1 ran
    exact (Context.Tightening.rest (.roots _) rfl).tightens

end Update

namespace Action

def Reopens : Action → Prop
  | storeExtensible _ extensible => extensible = true
  | _ => False

theorem tightens {a : Action} (closed : ¬ a.Reopens) : Update.Tightens a.update := by
  cases a with
  | intern text => exact Update.tightens_intern text
  | newString text => exact Update.tightens_newString text
  | key name => exact Update.tightens_key name
  | keyToValue k => exact Update.tightens_keyToValue k
  | newSymbol description => exact Update.tightens_newSymbol description
  | newObject prototype => exact Update.tightens_alloc .ordinary prototype
  | newFunction code name => exact Update.tightens_newNative code name false
  | newConstructor code name => exact Update.tightens_newConstructor code name
  | newBoxed v => exact Update.tightens_alloc (.boxed v) _
  | newProxy handler v prototype options => exact Update.tightens_alloc _ prototype
  | defineStored o k d => exact Update.tightens_defineStored o k d
  | deleteStored o k => exact Update.tightens_deleteStored o k
  | storePrototype o p => exact Update.tightens_storePrototype o p
  | storeExtensible o b =>
    cases b with
    | true => exact absurd rfl closed
    | false => exact Update.tightens_storeExtensible o
  | fixPrototype o => exact Update.tightens_fixPrototype o
  | setPrivate o v => exact Update.tightens_setPrivate o v
  | setReserved o slot v => exact Update.tightens_setReserved o slot v
  | setPending v => exact Update.tightens_modify (fun _ => .pending (some v)) fun _ => rfl
  | clearPending => exact Update.tightens_modify (fun _ => .pending none) fun _ => rfl
  | report kind message => exact Update.tightens_report kind message
  | addRoot o => exact Update.tightens_modify (fun _ => .roots _) fun _ => rfl
  | removeRoot o => exact Update.tightens_removeRoot o
  | setJobQueue q => exact Update.tightens_modify (fun _ => .jobQueue (some q)) fun _ => rfl
  | setPrincipals p => exact Update.tightens_modify (fun _ => .principals p) fun _ => rfl

theorem edits (a : Action) : Update.Edits a.update := by
  by_cases reopens : a.Reopens
  · cases a with
    | storeExtensible o b => exact Update.edits_storeExtensible o b
    | _ => cases reopens
  · exact (tightens reopens).edits

end Action

end ProxyEngine
