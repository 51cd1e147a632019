import ProxyEngine.Proofs.Context.Ageing
import ProxyEngine.Proofs.Context.Depth

/-! Room on the heap. Only an allocation can find the heap full, and it takes at most one
more slot; among the changes that operations make, a new object and a reported error
allocate. What was reported can be read off the pending exception. -/

namespace ProxyEngine

namespace Heap

variable {h h' : Heap} {o : ObjectId} {x : Object}

theorem full_of_alloc? (refused : h.alloc? x = none) : maxSlots ≤ h.slotCount := by
  by_contra room
  have stored := alloc?_isSome (Nat.lt_of_not_le room) x
  rw [refused] at stored
  cases stored

theorem slotCount_alloc (stored : h.alloc? x = some (o, h')) : h'.slotCount ≤ h.slotCount + 1 := by
  unfold alloc? at stored
  split at stored
  · cases stored
    simp [slotCount, counted]
  · split at stored
    · cases stored
      simp [slotCount, counted]
    · cases stored

end Heap

namespace Update

variable {α β : Type}

/-- The update needs no room. -/
def Total (u : Update α) : Prop :=
  ∀ c, (u c).isSome

theorem Total.pure (a : α) : Total (pure a) :=
  fun _ => rfl

theorem bind_isSome {u : Update α} {f : α → Update β} {c : Context} (first : (u c).isSome)
    (rest : ∀ a, Total (f a)) : ((u >>= f) c).isSome := by
  obtain ⟨⟨a, c₁⟩, ran⟩ := Option.isSome_iff_exists.1 first
  obtain ⟨⟨b, c'⟩, more⟩ := Option.isSome_iff_exists.1 (rest a c₁)
  exact Option.isSome_iff_exists.2 ⟨(b, c'), bind_eq_some.2 ⟨a, c₁, ran, more⟩⟩

theorem Total.bind {u : Update α} {f : α → Update β} (first : Total u) (rest : ∀ a, Total (f a)) :
    Total (u >>= f) :=
  fun c => bind_isSome (first c) rest

theorem Total.map {u : Update α} (total : Total u) (f : α → β) : Total (f <$> u) := by
  rw [map_eq_pure_bind]
  exact total.bind fun a => .pure _

theorem Total.ne_none {u : Update α} (total : Total u) (c : Context) : u c ≠ none :=
  Option.isSome_iff_ne_none.1 (total c)

theorem total_get : Total (get : Update Context) :=
  fun _ => rfl

theorem total_modifyObject (o : ObjectId) (f : Object → Object) : Total (modifyObject o f) :=
  fun _ => rfl

theorem total_newString (text : String) : Total (newString text) :=
  fun _ => rfl

theorem total_key (name : String) : Total (key name) := by
  unfold key
  split
  · exact .pure _
  · exact fun _ => rfl

theorem total_defineStored (o : ObjectId) (k : PropertyKey) (d : Descriptor) :
    Total (defineStored o k d) :=
  defineStored_isSome o k d

theorem total_deleteStored (o : ObjectId) (k : PropertyKey) : Total (deleteStored o k) := by
  refine total_get.bind fun c => ?_
  split
  · exact .pure _
  · split
    · exact (total_modifyObject o _).bind fun _ => .pure _
    · exact .pure _

theorem total_storePrototype (o : ObjectId) (proto : Option ObjectId) :
    Total (storePrototype o proto) := by
  refine total_get.bind fun c => ?_
  split
  · exact .pure _
  · split
    · exact .pure _
    · split
      · exact .pure _
      · exact (total_modifyObject o _).bind fun _ => .pure _

theorem key_eq_some {name : String} {c c' : Context} {k : PropertyKey}
    (ran : key name c = some (k, c')) : ∃ atoms, c' = { c with atoms } := by
  unfold key at ran
  cases spelled : PropertyKey.parseIndex? name with
  | some i =>
    rw [spelled] at ran
    cases ran
    exact ⟨_, rfl⟩
  | none =>
    rw [spelled] at ran
    cases ran
    exact ⟨_, rfl⟩

/-! Reports. -/

variable {kind : ErrorKind} {message : String} {c c' : Context}

theorem full_of_alloc {x : Object} (refused : alloc x c = none) :
    Heap.maxSlots ≤ c.heap.slotCount :=
  Heap.full_of_alloc? (Option.map_eq_none_iff.1 refused)

theorem full_of_report (refused : report kind message c = none) :
    Heap.maxSlots ≤ c.heap.slotCount := by
  let x : Object := { kind := .error kind message, prototype := some Context.objectPrototype }
  refine full_of_alloc (x := x) (Option.not_isSome_iff_eq_none.1 fun stored => ?_)
  have reported : (report kind message c).isSome :=
    bind_isSome stored fun e => (total_key _).bind fun k => (total_newString _).bind fun name =>
      ((total_defineStored e k _).map _).bind fun _ _ => rfl
  rw [refused] at reported
  cases reported

theorem errorInfo?_of_report (valid : c.heap.Valid) {a : Unit}
    (ran : report kind message c = some (a, c')) :
    ∃ e, c'.pending = some (.object e) ∧ c'.errorInfo? e = some (kind, message) := by
  obtain ⟨e, c₁, stored, ran⟩ := bind_eq_some.1 ran
  obtain ⟨k, c₂, keyed, ran⟩ := bind_eq_some.1 ran
  obtain ⟨name, c₃, named, ran⟩ := bind_eq_some.1 ran
  obtain ⟨_, c₄, defined, ⟨⟩⟩ := bind_eq_some.1 ran
  obtain ⟨⟨_, heap⟩, made, ⟨⟩⟩ := Option.map_eq_some_iff.1 stored
  have rest : Context.Edits { c with heap } c₄ :=
    (Tightens.edits (tightens_key "name") keyed).trans
      ((Tightens.edits (tightens_newString kind.name) named).trans
        (Tightens.edits ((tightens_defineStored e k _).map _) defined))
  refine ⟨e, rfl, ?_⟩
  have valid' : heap.Valid := valid.alloc made
  have found := (valid.get?_alloc made e).trans (if_pos rfl)
  have live : Context.isLive { c with heap } e := Option.isSome_iff_exists.2 ⟨_, found⟩
  obtain ⟨x, found'⟩ := Option.isSome_iff_exists.1 (rest.live valid' live)
  have nature := (rest.reaches.ages valid').heap.nature e _ x found found'
  have kept : x.kind = .error kind message := by
    cases shape : x.kind <;> rw [shape] at nature <;> first | exact nature | cases nature
  simp only [Context.errorInfo?, Context.get?]
  rw [show c₄.heap.get? e = some x from found', Option.bind_some, kept]

end Update

end ProxyEngine
