import ProxyEngine.Proofs.Collector.Marking
import ProxyEngine.Proofs.Value

/-! Where the handles in a context come from. An action puts the handles it was given
into the object it is about, into a new object or into the context itself; besides
these it only uses the two intrinsic prototypes and objects it has just made. An
invariant that tolerates every such edit is therefore kept by the action. -/

namespace ProxyEngine

def Descriptor.handles (d : Descriptor) : List ObjectId :=
  d.valueOrUndefined.asObject?.toList ++ d.getter?.toList ++ d.setter?.toList

theorem Descriptor.mem_handles_ofData {v : Value} {attrs : Attributes} {t : ObjectId} :
    t ∈ (ofData v attrs).handles ↔ v.asObject? = some t := by
  simp [handles, valueOrUndefined, getter?, setter?, ofData]

namespace Action

def handles : Action → List ObjectId
  | newObject proto => proto.toList
  | newBoxed v => v.asObject?.toList
  | newProxy _ v proto _ => v.asObject?.toList ++ proto.toList
  | defineStored _ _ d => d.handles
  | storePrototype _ proto => proto.toList
  | setPrivate _ v | setReserved _ _ v | setPending v => v.asObject?.toList
  | addRoot o => [o]
  | _ => []

/-- The object they are stored on; `none` for a new object and for the context itself. -/
def recipient? : Action → Option ObjectId
  | defineStored o _ _ | storePrototype o _ | setPrivate o _ | setReserved o _ _ => some o
  | _ => none

def prototype? : Action → Option ObjectId
  | newObject proto | newProxy _ _ proto _ | storePrototype _ proto => proto
  | _ => none

end Action

/-! What each kind of change does to the handles of an object. -/

namespace Object

variable {t : ObjectId}

theorem mem_references_iff {x : Object} : t ∈ x.references ↔ x.prototype = some t ∨
    (∃ k p, (k, p) ∈ x.properties.entries ∧ t ∈ propertyReferences p) ∨
      t ∈ kindReferences x.kind := by
  simp [references]

theorem references_ofDescriptor {d : Descriptor} (here : t ∈ propertyReferences (.ofDescriptor d)) :
    t ∈ d.handles := by
  unfold Property.ofDescriptor at here
  split at here
  · simp only [propertyReferences, List.mem_append] at here
    simp only [Descriptor.handles, List.mem_append]
    tauto
  · simp only [propertyReferences] at here
    simp only [Descriptor.handles, List.mem_append]
    exact .inl (.inl here)

theorem references_merge {current : Property} {d : Descriptor}
    (here : t ∈ propertyReferences (current.merge d)) :
    t ∈ propertyReferences current ∨ t ∈ d.handles := by
  simp only [Descriptor.handles, List.mem_append, Descriptor.valueOrUndefined, Descriptor.getter?,
    Descriptor.setter?]
  unfold Property.merge at here
  dsimp only at here
  by_cases accessor : (d.isAccessor || d.isGeneric && current.isAccessor) = true
  · rw [if_pos accessor] at here
    rcases List.mem_append.1 here with getter | setter
    · cases present : d.hasGetter with
      | true => simp_all
      | false => cases current <;> simp_all [propertyReferences, Property.accessorPart]
    · cases present : d.hasSetter with
      | true => simp_all
      | false => cases current <;> simp_all [propertyReferences, Property.accessorPart]
  · rw [if_neg accessor] at here
    simp only [propertyReferences] at here
    cases present : d.hasValue with
    | true => simp_all
    | false =>
      rw [present, if_neg Bool.false_ne_true] at here
      cases current with
      | data v attrs => exact .inl here
      | accessor getter setter attrs => simp [Property.dataPart] at here

theorem references_redefine {current p : Property} {d : Descriptor}
    (redefined : current.redefine d = .ok p) (here : t ∈ propertyReferences p) :
    t ∈ propertyReferences current ∨ t ∈ d.handles := by
  unfold Property.redefine at redefined
  split at redefined
  · cases redefined
  · cases redefined
    exact references_merge here

theorem mem_entries_insert {table : PropertyTable} {k k' : PropertyKey} {p q : Property}
    (here : (k', q) ∈ (table.insert k p).entries) : q = p ∨ (k', q) ∈ table.entries := by
  unfold PropertyTable.insert at here
  split at here
  · obtain ⟨e, stored, replaced⟩ := List.mem_map.1 here
    unfold PropertyTable.replaceEntry at replaced
    split at replaced
    · cases replaced
      exact .inl rfl
    · exact .inr (replaced ▸ stored)
  · rcases List.mem_append.1 here with stored | new
    · exact .inr stored
    · cases List.mem_singleton.1 new
      exact .inl rfl

theorem references_insert {x : Object} {k : PropertyKey} {p : Property}
    (here : t ∈ references { x with properties := x.properties.insert k p }) :
    t ∈ x.references ∨ t ∈ propertyReferences p := by
  rw [mem_references_iff] at here ⊢
  rcases here with proto | ⟨k', q, stored, mem⟩ | kind
  · exact .inl (.inl proto)
  · rcases mem_entries_insert stored with rfl | old
    · exact .inr mem
    · exact .inl (.inr (.inl ⟨k', q, old, mem⟩))
  · exact .inl (.inr (.inr kind))

theorem references_of_lookup {x : Object} {k : PropertyKey} {p : Property}
    (found : x.properties.get? k = some p) (here : t ∈ propertyReferences p) :
    t ∈ x.references := by
    obtain ⟨before, after, parts, -⟩ := List.lookup_eq_some_iff.1 found
    exact mem_references_iff.2 (.inr (.inl ⟨k, p, by simp [parts], here⟩))

theorem references_erase {x : Object} {k : PropertyKey}
    (here : t ∈ references { x with properties := x.properties.erase k }) : t ∈ x.references := by
  rw [mem_references_iff] at here ⊢
  rcases here with proto | ⟨k', q, stored, mem⟩ | kind
  · exact .inl proto
  · exact .inr (.inl ⟨k', q, List.mem_of_mem_filter stored, mem⟩)
  · exact .inr (.inr kind)

theorem references_kind {x : Object} {kind : ObjectKind}
    (here : t ∈ references { x with kind }) : t ∈ x.references ∨ t ∈ kindReferences kind := by
  rw [mem_references_iff] at here ⊢
  rcases here with proto | stored | new
  · exact .inl (.inl proto)
  · exact .inl (.inr (.inl stored))
  · exact .inr new

end Object

/-- Edits that `I` survives: those that store only handles in `A` as prototypes, and give
handles to an object, or to a new object or the context itself, as `G` allows. The table
of roots is left alone. -/
structure Context.Tolerates (I : Context → Prop) (A : ObjectId → Prop)
    (G : Option ObjectId → ObjectId → Prop) : Prop where
  intrinsic : ∀ p, p = objectPrototype ∨ p = functionPrototype → A p ∧ G none p
  /-- A new object may be given to anything. -/
  alloc : ∀ {c o heap kind prototype}, I c → (∀ t, prototype = some t → A t ∧ G none t) →
    (∀ t ∈ Object.kindReferences kind, G none t) →
    c.heap.alloc? { kind, prototype } = some (o, heap) → I { c with heap } ∧ ∀ r, G r o
  change : ∀ {c o x} (f : Object → Object), I c → c.get? o = some x → x.Change c o (f x) →
    (∀ t, (f x).prototype = some t → x.prototype = some t ∨ A t) →
    (∀ t ∈ (f x).references, t ∈ x.references ∨ G (some o) t) →
    I { c with heap := c.heap.modify o f }
  pending : ∀ {c} (v : Option Value), I c → (∀ t, v.bind Value.asObject? = some t → G none t) →
    I { c with pending := v }
  rest : ∀ {c c'}, I c → c.Edit c' → c'.heap = c.heap → c'.roots = c.roots →
    c'.pending = c.pending → I c'

namespace Update

open Context

variable {I : Context → Prop} {A : ObjectId → Prop} {G : Option ObjectId → ObjectId → Prop}
  {α β : Type}

/-- The update keeps `I` and answers something in `Q`. -/
def Respects (I : Context → Prop) (Q : α → Prop) (u : Update α) : Prop :=
  ∀ ⦃c a c'⦄, I c → u c = some (a, c') → I c' ∧ Q a

theorem Respects.pure {Q : α → Prop} {a : α} (holds : Q a) :
    Respects I Q (Pure.pure a : Update α) := by
  rintro c _ _ keeps ⟨⟩
  exact ⟨keeps, holds⟩

theorem Respects.bind {Q : α → Prop} {Q' : β → Prop} {u : Update α} {f : α → Update β}
    (first : Respects I Q u) (rest : ∀ a, Q a → Respects I Q' (f a)) :
    Respects I Q' (u >>= f) := by
  intro c b c' keeps ran
  obtain ⟨a, c₁, ran, more⟩ := bind_eq_some.1 ran
  obtain ⟨keeps, holds⟩ := first keeps ran
  exact rest a holds keeps more

theorem Respects.any {Q : α → Prop} {u : Update α} (respects : Respects I Q u) :
    Respects I (fun _ => True) u :=
  fun _ _ _ keeps ran => ⟨(respects keeps ran).1, trivial⟩

theorem Respects.map {Q : α → Prop} {u : Update α} (respects : Respects I Q u) (f : α → β) :
    Respects I (fun _ => True) (f <$> u) := by
  rw [map_eq_pure_bind]
  exact respects.bind fun _ _ => .pure trivial

variable (tolerates : Tolerates I A G)

include tolerates

theorem respects_alloc {kind : ObjectKind} {prototype : Option ObjectId}
    (ancestor : ∀ t, prototype = some t → A t ∧ G none t)
    (given : ∀ t ∈ Object.kindReferences kind, G none t) :
    Respects I (fun o => ∀ r, G r o) (alloc { kind, prototype }) := by
  intro c o c' keeps ran
  obtain ⟨⟨o, heap⟩, stored, answer⟩ := Option.map_eq_some_iff.1 ran
  cases answer
  exact tolerates.alloc keeps ancestor given stored

theorem respects_intern (s : String) : Respects I (fun _ => True) (intern s) := by
  rintro c _ _ keeps ⟨⟩
  exact ⟨tolerates.rest keeps (.intern s) rfl rfl rfl, trivial⟩

theorem respects_newString (s : String) :
    Respects I (fun v => v.asObject? = none) (newString s) := by
  have last (a : Atom) : Respects I (fun v => v.asObject? = none) (Pure.pure (Value.string a)) :=
    .pure (Value.asObject?_string a)
  unfold newString
  rw [map_eq_pure_bind]
  exact (respects_intern tolerates s).bind fun a _ => last a

theorem respects_key (name : String) : Respects I (fun _ => True) (key name) := by
  unfold key
  split
  · exact .pure trivial
  · exact (respects_intern tolerates name).map _

theorem respects_newSymbol (description : Option String) :
    Respects I (fun _ => True) (newSymbol description) := by
  have last (d : Option Atom) : Respects I (fun _ => True) (modifyGet fun c =>
      ((⟨.ofNat c.symbols.length⟩ : SymbolId), { c with symbols := c.symbols ++ [d] })) := by
    rintro c _ _ keeps ⟨⟩
    exact ⟨tolerates.rest keeps (.symbol d) rfl rfl rfl, trivial⟩
  cases description with
  | none => exact last none
  | some s => exact ((respects_intern tolerates s).map some).bind fun d _ => last d

theorem respects_modifyObject {o : ObjectId} {f : Object → Object} {c c' : Context} {a : Unit}
    (keeps : I c) (ran : modifyObject o f c = some (a, c'))
    (change : ∀ x, c.get? o = some x → x.Change c o (f x))
    (ancestor : ∀ (x : Object) t, (f x).prototype = some t → x.prototype = some t ∨ A t)
    (given : ∀ x, c.get? o = some x → ∀ t ∈ (f x).references, t ∈ x.references ∨ G (some o) t) :
    I c' := by
  cases ran
  cases found : c.get? o with
  | none =>
    have same : c.heap.modify o f = c.heap := Heap.modify_of_dead found f
    simp only [same]
    exact keeps
  | some x => exact tolerates.change f keeps found (change x found) (ancestor x) (given x found)

theorem respects_defineStored {o : ObjectId} {d : Descriptor} (k : PropertyKey)
    (given : ∀ t ∈ d.handles, G (some o) t) :
    Respects I (fun _ => True) (defineStored o k d) := by
  intro c a c' keeps ran
  refine ⟨?_, trivial⟩
  unfold defineStored at ran
  obtain ⟨_, _, ⟨⟩, ran⟩ := bind_eq_some.1 ran
  cases found : c.get? o with
  | none =>
    rw [found] at ran
    cases ran
    exact keeps
  | some x =>
    have self {y : Object} (same : c.get? o = some y) : y = x :=
      Option.some.inj (same.symm.trans found)
    cases stored : x.properties.get? k with
    | some current =>
      simp only [found, stored] at ran
      cases redefined : current.redefine d with
      | ok p =>
        rw [redefined] at ran
        obtain ⟨_, c₁, ran, ⟨⟩⟩ := bind_eq_some.1 ran
        refine respects_modifyObject tolerates keeps ran (fun y same => ?_) (fun _ _ => .inl)
          fun y same t here => ?_
        · rw [self same]
          exact .redefine stored redefined
        · rw [self same] at here ⊢
          refine (Object.references_insert here).elim .inl fun new => ?_
          exact (Object.references_redefine redefined new).imp (Object.references_of_lookup stored)
            (given t)
      | error r =>
        rw [redefined] at ran
        cases ran
        exact keeps
    | none =>
      simp only [found, stored] at ran
      cases extensible : x.extensible with
      | true =>
        rw [extensible, if_pos rfl] at ran
        obtain ⟨_, c₁, ran, ⟨⟩⟩ := bind_eq_some.1 ran
        refine respects_modifyObject tolerates keeps ran (fun y same => ?_) (fun _ _ => .inl)
          fun y _ t here => ?_
        · rw [self same]
          exact .create d stored extensible
        · exact (Object.references_insert here).imp_right fun new =>
            given t (Object.references_ofDescriptor new)
      | false =>
        rw [extensible] at ran
        cases ran
        exact keeps

theorem respects_deleteStored (o : ObjectId) (k : PropertyKey) :
    Respects I (fun _ => True) (deleteStored o k) := by
  intro c a c' keeps ran
  refine ⟨?_, trivial⟩
  unfold deleteStored at ran
  obtain ⟨_, _, ⟨⟩, ran⟩ := bind_eq_some.1 ran
  cases stored : c.ownProperty? o k with
  | none =>
    rw [stored] at ran
    cases ran
    exact keeps
  | some p =>
    cases configurable : p.attributes.configurable with
    | true =>
      simp only [stored, configurable, if_true] at ran
      obtain ⟨_, c₁, ran, ⟨⟩⟩ := bind_eq_some.1 ran
      refine respects_modifyObject tolerates keeps ran (fun x found => ?_) (fun _ _ => .inl)
        fun x _ t here => .inl (Object.references_erase here)
      unfold Context.ownProperty? at stored
      rw [found] at stored
      exact .delete stored configurable
    | false =>
      simp only [stored, configurable] at ran
      cases ran
      exact keeps

theorem respects_storePrototype {o : ObjectId} {proto : Option ObjectId}
    (ancestor : ∀ t, proto = some t → A t ∧ G (some o) t) :
    Respects I (fun _ => True) (storePrototype o proto) := by
  intro c a c' keeps ran
  refine ⟨?_, trivial⟩
  unfold storePrototype at ran
  obtain ⟨_, _, ⟨⟩, ran⟩ := bind_eq_some.1 ran
  cases found : c.get? o with
  | none =>
    rw [found] at ran
    cases ran
    exact keeps
  | some x =>
    simp only [found] at ran
    by_cases same : x.prototype = proto
    · rw [if_pos same] at ran
      cases ran
      exact keeps
    · rw [if_neg same] at ran
      by_cases refused : (x.immutablePrototype || !x.extensible
          || c.prototypeWalkMeets o (c.heap.slotCount + 1) proto) = true
      · rw [if_pos refused] at ran
        cases ran
        exact keeps
      · rw [if_neg refused] at ran
        obtain ⟨_, c₁, ran, ⟨⟩⟩ := bind_eq_some.1 ran
        simp only [Bool.or_eq_true, Bool.not_eq_true', not_or, Bool.not_eq_true,
          Bool.not_eq_false] at refused
        refine respects_modifyObject tolerates keeps ran (fun y found' => ?_)
          (fun y t here => .inr (ancestor t here).1) fun y _ t here => ?_
        · obtain rfl := Option.some.inj (found.symm.trans found')
          exact .prototype same refused.1.1 refused.1.2 refused.2
        · rw [Object.mem_references_iff] at here
          rcases here with new | old
          · exact .inr (ancestor t new).2
          · exact .inl (Object.mem_references_iff.2 (.inr old))

theorem respects_storeExtensible (o : ObjectId) (b : Bool) :
    Respects I (fun _ => True) (storeExtensible o b) :=
  fun _ _ _ keeps ran => ⟨respects_modifyObject tolerates keeps ran (fun _ _ => .extensible b)
    (fun _ _ => .inl) fun _ _ _ => .inl, trivial⟩

theorem respects_fixPrototype (o : ObjectId) : Respects I (fun _ => True) (fixPrototype o) :=
  fun _ _ _ keeps ran => ⟨respects_modifyObject tolerates keeps ran (fun _ _ => .fixPrototype)
    (fun _ _ => .inl) fun _ _ _ => .inl, trivial⟩

theorem respects_mapProxy {o : ObjectId} {f : ProxyState → ProxyState} {c c' : Context} {a : Unit}
    (keeps : I c) (ran : modifyObject o (Object.mapProxy f) c = some (a, c'))
    (change : ∀ (x : Object) s, x.kind = .proxy s → x.Change c o { x with kind := .proxy (f s) })
    (given : ∀ s, ∀ t ∈ Object.kindReferences (.proxy (f s)),
      t ∈ Object.kindReferences (.proxy s) ∨ G (some o) t) : I c' := by
  have same {x : Object} (found : c.get? o = some x) (fixed : x.mapProxy f = x) : I c' := by
    cases ran
    have same : c.heap.modify o (Object.mapProxy f) = c.heap := Heap.modify_of_fixed found fixed
    simp only [same]
    exact keeps
  cases found : c.get? o with
  | none =>
    refine respects_modifyObject tolerates keeps ran (by simp [found]) (fun x t here => .inl ?_)
      (by simp [found])
    unfold Object.mapProxy at here
    split at here <;> exact here
  | some x =>
    cases kind : x.kind with
    | proxy s =>
      have mapped : x.mapProxy f = { x with kind := .proxy (f s) } := by
        simp [Object.mapProxy, kind]
      cases ran
      refine tolerates.change _ keeps found ?_ (fun t here => .inl ?_) fun t here => ?_
      · rw [mapped]
        exact change x s kind
      · rw [mapped] at here
        exact here
      · rw [mapped] at here
        rcases Object.references_kind here with old | new
        · exact .inl old
        · exact (given s t new).imp_left fun old =>
            Object.mem_references_iff.2 (.inr (.inr (kind ▸ old)))
    | _ => exact same found (by simp [Object.mapProxy, kind])

theorem respects_setPrivate {o : ObjectId} {v : Value}
    (given : ∀ t, v.asObject? = some t → G (some o) t) :
    Respects I (fun _ => True) (setPrivate o v) := by
  intro c a c' keeps ran
  obtain ⟨_, _, ⟨⟩, ran⟩ := bind_eq_some.1 ran
  obtain ⟨_, _, ran, ⟨⟩⟩ := bind_eq_some.1 ran
  refine ⟨respects_mapProxy tolerates keeps ran (fun _ _ kind => .setPrivate v kind)
    fun s t here => ?_, trivial⟩
  rcases List.mem_append.1 here with new | old
  · exact .inr (given t (Option.mem_toList.1 new))
  · exact .inl (List.mem_append_right _ old)

theorem respects_setReserved {o : ObjectId} {v : Value} (slot : Nat)
    (given : ∀ t, v.asObject? = some t → G (some o) t) :
    Respects I (fun _ => True) (setReserved o slot v) := by
  intro c a c' keeps ran
  obtain ⟨_, _, ⟨⟩, ran⟩ := bind_eq_some.1 ran
  obtain ⟨_, _, ran, ⟨⟩⟩ := bind_eq_some.1 ran
  refine ⟨respects_mapProxy tolerates keeps ran (fun _ _ kind => .setReserved slot v kind)
    fun s t here => ?_, trivial⟩
  rcases List.mem_append.1 here with old | slots
  · exact .inl (List.mem_append_left _ old)
  · obtain ⟨w, listed, object⟩ := List.mem_filterMap.1 slots
    rcases List.mem_or_eq_of_mem_set listed with old | rfl
    · exact .inl (List.mem_append_right _ (List.mem_filterMap.2 ⟨w, old, object⟩))
    · exact .inr (given t object)

theorem respects_newNative (code : FunctionId) (name : String) (isConstructor : Bool) :
    Respects I (fun o => ∀ r, G r o) (newNative code name isConstructor) :=
  (respects_intern tolerates name).bind fun _ _ =>
    respects_alloc tolerates (by rintro _ ⟨⟩; exact tolerates.intrinsic _ (.inr rfl))
      fun _ here => absurd here List.not_mem_nil

theorem respects_newObject : Respects I (fun o => ∀ r, G r o) newObject :=
  respects_alloc tolerates (by rintro _ ⟨⟩; exact tolerates.intrinsic _ (.inl rfl))
    fun _ here => absurd here List.not_mem_nil

theorem respects_newConstructor (code : FunctionId) (name : String) :
    Respects I (fun _ => True) (newConstructor code name) :=
  (respects_newNative tolerates code name true).bind fun f _ =>
    (respects_newObject tolerates).bind fun proto fresh =>
      (respects_key tolerates "prototype").bind fun k _ =>
        ((respects_defineStored tolerates k fun t here => by
          obtain rfl : proto = t := by simpa using Descriptor.mem_handles_ofData.1 here
          exact fresh (some f)).map _).bind fun _ _ => .pure trivial

theorem respects_setPending {v : Value} (given : ∀ t, v.asObject? = some t → G none t) :
    Respects I (fun _ => True) (setPending v) := by
  rintro c _ _ keeps ⟨⟩
  exact ⟨tolerates.pending _ keeps given, trivial⟩

theorem respects_clearPending : Respects I (fun _ => True) clearPending := by
  rintro c _ _ keeps ⟨⟩
  exact ⟨tolerates.pending _ keeps (fun _ => nofun), trivial⟩

theorem respects_report (kind : ErrorKind) (message : String) :
    Respects I (fun _ => True) (report kind message) := by
  refine (respects_alloc tolerates (fun t own => ?_) fun _ here => absurd here
    List.not_mem_nil).bind fun e fresh => ?_
  · exact tolerates.intrinsic t (.inl (Option.some.inj own).symm)
  refine (respects_key tolerates "name").bind fun k _ => ?_
  refine (respects_newString tolerates kind.name).bind fun v plain => ?_
  refine ((respects_defineStored tolerates k fun t here => ?_).map _).bind fun _ _ =>
    respects_setPending tolerates fun t here => ?_
  · rw [Descriptor.mem_handles_ofData, plain] at here
    cases here
  · rw [Value.asObject?_object] at here
    exact Option.some.inj here ▸ fresh none

theorem respects_keyToValue (k : PropertyKey) : Respects I (fun _ => True) (keyToValue k) := by
  cases k with
  | index i => exact (respects_newString tolerates _).any
  | _ => exact .pure trivial

theorem respects_modify {f : Context → Context} (edit : ∀ c, Context.Edit c (f c))
    (heap : ∀ c, (f c).heap = c.heap) (roots : ∀ c, (f c).roots = c.roots)
    (pending : ∀ c, (f c).pending = c.pending) :
    Respects I (fun _ => True) (modify f : Update Unit) := by
  rintro c _ _ keeps ⟨⟩
  exact ⟨tolerates.rest keeps (edit c) (heap c) (roots c) (pending c), trivial⟩

end Update

namespace Action

variable {I : Context → Prop} {A : ObjectId → Prop} {G : Option ObjectId → ObjectId → Prop}

def Registers : Action → Prop
  | addRoot _ | removeRoot _ => True
  | _ => False

theorem respects (tolerates : Context.Tolerates I A G) {a : Action} (apart : ¬ a.Registers)
    (ancestor : ∀ t, a.prototype? = some t → A t) (given : ∀ t ∈ a.handles, G a.recipient? t) :
    Update.Respects I (fun _ => True) a.update := by
  have intrinsic (p : ObjectId)
      (own : p = Context.objectPrototype ∨ p = Context.functionPrototype) :=
    tolerates.intrinsic p own
  cases a with
  | intern text => exact Update.respects_intern tolerates text
  | newString text => exact (Update.respects_newString tolerates text).any
  | key name => exact Update.respects_key tolerates name
  | keyToValue k => exact Update.respects_keyToValue tolerates k
  | newSymbol description => exact Update.respects_newSymbol tolerates description
  | newObject proto =>
    exact (Update.respects_alloc tolerates
      (fun t own => ⟨ancestor t own, given t (Option.mem_toList.2 own)⟩)
      fun _ here => absurd here List.not_mem_nil).any
  | newFunction code name => exact (Update.respects_newNative tolerates code name false).any
  | newConstructor code name => exact Update.respects_newConstructor tolerates code name
  | newBoxed v =>
    have stored : ∀ t ∈ Object.kindReferences (.boxed v), G none t := given
    exact (Update.respects_alloc tolerates
      (fun t own => intrinsic t (.inl (Option.some.inj own).symm)) stored).any
  | newProxy handler v proto options =>
    refine (Update.respects_alloc tolerates (fun t own => ⟨ancestor t own,
      given t (List.mem_append_right _ (Option.mem_toList.2 own))⟩) fun t here => ?_).any
    rcases List.mem_append.1 here with own | reserved
    · exact given t (List.mem_append_left _ own)
    · obtain ⟨w, listed, object⟩ := List.mem_filterMap.1 reserved
      rw [List.eq_of_mem_replicate listed, Value.asObject?_undefined] at object
      cases object
  | defineStored o k d => exact Update.respects_defineStored tolerates k given
  | deleteStored o k => exact Update.respects_deleteStored tolerates o k
  | storePrototype o proto =>
    exact Update.respects_storePrototype tolerates fun t own =>
      ⟨ancestor t own, given t (Option.mem_toList.2 own)⟩
  | storeExtensible o b => exact Update.respects_storeExtensible tolerates o b
  | fixPrototype o => exact Update.respects_fixPrototype tolerates o
  | setPrivate o v =>
    exact Update.respects_setPrivate tolerates fun t own => given t (Option.mem_toList.2 own)
  | setReserved o slot v =>
    exact Update.respects_setReserved tolerates slot fun t own => given t (Option.mem_toList.2 own)
  | setPending v =>
    exact Update.respects_setPending tolerates fun t own => given t (Option.mem_toList.2 own)
  | clearPending => exact Update.respects_clearPending tolerates
  | report kind message => exact Update.respects_report tolerates kind message
  | addRoot o => exact absurd trivial apart
  | removeRoot o => exact absurd trivial apart
  | setJobQueue queue =>
    exact Update.respects_modify tolerates (fun _ => .jobQueue (some queue)) (fun _ => rfl)
      (fun _ => rfl) fun _ => rfl
  | setPrincipals principals =>
    exact Update.respects_modify tolerates (fun _ => .principals principals) (fun _ => rfl)
      (fun _ => rfl) fun _ => rfl

end Action

end ProxyEngine
