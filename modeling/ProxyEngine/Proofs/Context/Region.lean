import ProxyEngine.Proofs.Context.Rewriting

/-! A region of the heap that keeps its handles to itself, and two contexts that have the
same objects in it. What the built-in methods read lies in such a region, so the updates
they make answer the same on both contexts, leave the region the same and all other
objects alone. Only new objects get different handles: what allocates is told apart. -/

namespace ProxyEngine

namespace Heap

variable {h h' : Heap} {o : ObjectId} {x : Object}

def room (h : Heap) : Nat :=
  h.free.length + (maxSlots - h.slots.size)

theorem alloc?_isSome_iff : (h.alloc? x).isSome ↔ 0 < h.room := by
  unfold alloc? room
  cases h.free with
  | cons i rest => simp [Nat.add_right_comm]
  | nil =>
    simp only [List.length_nil, Nat.zero_add, Nat.sub_pos_iff_lt]
    split <;> simp [*]

theorem Valid.room_alloc (valid : h.Valid) (stored : h.alloc? x = some (o, h')) :
    h'.room + 1 = h.room := by
  unfold room
  obtain ⟨-, -, ⟨list, -, size⟩ | ⟨list, list', -, -, size, more⟩⟩ := valid.alloc_cases stored
  · rw [list, size, List.length_cons]
    omega
  · rw [list, list', size]
    simp only [List.length_nil]
    omega

@[simp] theorem room_modify (h : Heap) (o : ObjectId) (f : Object → Object) :
    (h.modify o f).room = h.room := by
  simp [room]

@[simp] theorem slotCount_modify (h : Heap) (o : ObjectId) (f : Object → Object) :
    (h.modify o f).slotCount = h.slotCount :=
  size_modify h o f

theorem room_release (h : Heap) (o : ObjectId) : h.room ≤ (h.release o).2.room := by
  unfold room
  rw [size_release]
  cases found : h.get? o with
  | none => rw [release_of_dead found]
  | some x =>
    rw [free_release found]
    split <;> simp

end Heap

namespace Context

variable {S : ObjectId → Prop} {c c' c₀ c₁ c₁' : Context} {o t : ObjectId}

/-- The objects of the region hold handles of the region only. -/
def Closed (S : ObjectId → Prop) (c : Context) : Prop :=
  ∀ o x t, S o → c.get? o = some x → t ∈ x.references → S t

/-- The two contexts have the same objects in the region, and differ in other objects and
the books of the collector at most. The second heap has no less room. -/
structure Alike (S : ObjectId → Prop) (c c' : Context) : Prop where
  objects : ∀ o, S o → c'.get? o = c.get? o
  closed : c.Closed S
  valid : c.heap.Valid
  valid' : c'.heap.Valid
  slots : c'.heap.slotCount = c.heap.slotCount
  room : c.heap.room ≤ c'.heap.room
  rest : c' = { c with heap := c'.heap, stats := c'.stats }

/-- The same after different objects were made: objects that were live on `c₀` are what
counts, and the pending exception may be another one. -/
structure Resemble (S : ObjectId → Prop) (c₀ c c' : Context) : Prop where
  objects : ∀ o, S o → c₀.isLive o → c.isLive o ∧ c'.get? o = c.get? o
  valid : c.heap.Valid
  valid' : c'.heap.Valid
  room : c.heap.room ≤ c'.heap.room
  rest : c' = { c with heap := c'.heap, stats := c'.stats, pending := c'.pending }

/-- No object dies on the way from `c` to `c₁`, and those outside of the region stay as
they are. -/
structure Spares (S : ObjectId → Prop) (c c₁ : Context) : Prop where
  live : ∀ o, c.isLive o → c₁.isLive o
  outside : ∀ o, c.isLive o → ¬ S o → c₁.get? o = c.get? o

theorem Spares.refl (S : ObjectId → Prop) (c : Context) : c.Spares S c :=
  ⟨fun _ live => live, fun _ _ _ => rfl⟩

theorem Spares.trans {c₂ : Context} (first : c.Spares S c₁) (second : c₁.Spares S c₂) :
    c.Spares S c₂ :=
  ⟨fun o live => second.live o (first.live o live), fun o live out =>
    (second.outside o (first.live o live) out).trans (first.outside o live out)⟩

theorem spares_of_fresh {e : ObjectId} (dead : c.get? e = none)
    (others : ∀ o, o ≠ e → c₁.get? o = c.get? o) : c.Spares S c₁ := by
  have apart : ∀ o, c.isLive o → c₁.get? o = c.get? o := by
    rintro o live
    refine others o ?_
    rintro rfl
    obtain ⟨x, found⟩ := Option.isSome_iff_exists.1 live
    cases dead.symm.trans found
  refine ⟨fun o live => ?_, fun o live _ => apart o live⟩
  have same : c₁.isLive o = c.isLive o := congrArg Option.isSome (apart o live)
  rw [same]
  exact live

theorem Reported.spares {kind : ErrorKind} {message : String} (valid : c.heap.Valid)
    (reported : c.Reported kind message c₁) : c.Spares S c₁ := by
  obtain ⟨e, fresh, -, -, others⟩ := reported.error
  refine spares_of_fresh ?_ others
  by_contra live
  obtain ⟨x, found⟩ := Option.ne_none_iff_exists'.1 live
  exact fresh (valid.issued_of_live found)

theorem Alike.resemble (alike : c.Alike S c') : Resemble S c c c' :=
  ⟨fun o inside live => ⟨live, alike.objects o inside⟩, alike.valid, alike.valid', alike.room, by
    rw [alike.rest]⟩

theorem Resemble.since (resemble : Resemble S c₁ c c') (live : ∀ o, c₀.isLive o → c₁.isLive o) :
    Resemble S c₀ c c' :=
  { resemble with objects := fun o inside alive => resemble.objects o inside (live o alive) }

theorem Resemble.apart (resemble : Resemble S c₀ c c') (same : c.Spares (fun _ => False) c₁)
    (same' : c'.Spares (fun _ => False) c₁') (valid : c₁.heap.Valid) (valid' : c₁'.heap.Valid)
    (room : c₁.heap.room ≤ c₁'.heap.room)
    (rest : c₁' = { c₁ with heap := c₁'.heap, stats := c₁'.stats, pending := c₁'.pending }) :
    Resemble S c₀ c₁ c₁' := by
  refine ⟨fun o inside live => ?_, valid, valid', room, rest⟩
  obtain ⟨alive, equal⟩ := resemble.objects o inside live
  have alive' : c'.isLive o := (congrArg Option.isSome equal).trans alive
  exact ⟨same.live o alive, ((same'.outside o alive' id).trans equal).trans
    (same.outside o alive id).symm⟩

/-! Reading inside the region. -/

section

variable (closed : c.Closed S) (inside : S o)

include closed inside

theorem Closed.storedPrototype {p : ObjectId} (proto : c.storedPrototype o = some p) : S p := by
  obtain ⟨x, found, proto⟩ := Option.bind_eq_some_iff.1 proto
  exact closed o x p inside found (Object.mem_references_iff.2 (.inl proto))

theorem Closed.ownDescriptor? {k : PropertyKey} {d : Descriptor}
    (own : c.ownDescriptor? o k = some d) : ∀ t ∈ d.handles, S t := by
  obtain ⟨p, stored, rfl⟩ := Option.map_eq_some_iff.1 own
  obtain ⟨x, found, stored⟩ := Option.bind_eq_some_iff.1 stored
  intro t here
  refine closed o x t inside found (Object.references_of_lookup stored ?_)
  cases p with
  | data v attrs =>
    exact Option.mem_toList.2 (Descriptor.mem_handles_ofData.1 here)
  | accessor getter setter attrs =>
    simpa [Property.toDescriptor, Descriptor.handles, Descriptor.ofAccessor,
      Descriptor.valueOrUndefined, Descriptor.getter?, Descriptor.setter?,
      Object.propertyReferences] using here

theorem Closed.target? (target : c.target? o = some t) : S t := by
  obtain ⟨v, slot, object⟩ := Option.bind_eq_some_iff.1 target
  obtain ⟨s, proxy, rfl⟩ := Option.map_eq_some_iff.1 slot
  obtain ⟨x, found, proxy⟩ := Option.bind_eq_some_iff.1 proxy
  refine closed o x t inside found (Object.mem_references.2 ?_)
  cases kind : x.kind with
  | proxy s' =>
    simp only [Object.proxy?, kind, Option.some.injEq] at proxy
    subst proxy
    exact .privateValue kind object
  | _ => simp [Object.proxy?, kind] at proxy

theorem Closed.boxedValue (object : (c.boxedValue o).asObject? = some t) : S t := by
  unfold Context.boxedValue at object
  split at object
  next v boxed =>
    obtain ⟨x, found, kind⟩ := Option.map_eq_some_iff.1 boxed
    exact closed o x t inside found (Object.mem_references.2 (.boxed kind object))
  next => cases object

end

section

variable (alike : c.Alike S c') (inside : S o)

include alike inside

theorem Alike.ownDescriptor? (k : PropertyKey) : c'.ownDescriptor? o k = c.ownDescriptor? o k := by
  rw [Context.ownDescriptor?, Context.ownProperty?, alike.objects o inside]
  rfl

theorem Alike.storedPrototype : c'.storedPrototype o = c.storedPrototype o := by
  rw [Context.storedPrototype, alike.objects o inside]
  rfl

theorem Alike.storedProxyPrototype : c'.storedProxyPrototype o = c.storedProxyPrototype o := by
  unfold Context.storedProxyPrototype Context.proxy?
  rw [alike.storedPrototype inside, alike.objects o inside]

theorem Alike.ownKeys : c'.ownKeys o = c.ownKeys o := by
  unfold Context.ownKeys
  rw [alike.objects o inside]

theorem Alike.ownEnumerableKeys : c'.ownEnumerableKeys o = c.ownEnumerableKeys o := by
  unfold Context.ownEnumerableKeys Context.ownKeys Context.ownProperty?
  rw [alike.objects o inside]

theorem Alike.boxedValue : c'.boxedValue o = c.boxedValue o := by
  unfold Context.boxedValue
  rw [alike.objects o inside]

theorem Alike.target? : c'.target? o = c.target? o := by
  unfold Context.target? Context.private? Context.proxy?
  rw [alike.objects o inside]

theorem Alike.function? : c'.function? o = c.function? o := by
  rw [Context.function?, alike.objects o inside]
  rfl

end

theorem Alike.prototypeWalkMeets (alike : c.Alike S c') (o : ObjectId) {budget : Nat}
    {p : Option ObjectId} (inside : ∀ t, p = some t → S t) :
    c'.prototypeWalkMeets o budget p = c.prototypeWalkMeets o budget p := by
  induction budget generalizing p with
  | zero => rfl
  | succ budget ih =>
    cases p with
    | none => rfl
    | some p =>
      have here := inside p rfl
      unfold Context.prototypeWalkMeets
      rw [alike.objects p here]
      cases found : c.get? p with
      | none => rfl
      | some x =>
        dsimp only
        rw [ih fun t proto => ?_]
        exact alike.closed p x t here found (Object.mem_references_iff.2 (.inl proto))

theorem Alike.modify (alike : c.Alike S c') (inside : S o) {f : Object → Object}
    (keeps : ∀ x, c.get? o = some x → ∀ t ∈ (f x).references, t ∈ x.references ∨ S t) :
    Alike S { c with heap := c.heap.modify o f } { c' with heap := c'.heap.modify o f } where
  objects p here := by
    show (c'.heap.modify o f).get? p = (c.heap.modify o f).get? p
    rw [Heap.get?_modify, Heap.get?_modify]
    have same : c'.heap.get? o = c.heap.get? o := alike.objects o inside
    have same' : c'.heap.get? p = c.heap.get? p := alike.objects p here
    rw [same, same']
  closed p y t here found mem := by
    replace found : (c.heap.modify o f).get? p = some y := found
    rw [Heap.get?_modify] at found
    split at found
    next same =>
      subst same
      obtain ⟨x, before, rfl⟩ := Option.map_eq_some_iff.1 found
      exact (keeps x before t mem).elim (alike.closed p x t here before) id
    next => exact alike.closed p y t here found mem
  valid := alike.valid.modify o f
  valid' := alike.valid'.modify o f
  slots := by simpa using alike.slots
  room := by simpa using alike.room
  rest := by rw [alike.rest]

theorem spares_modify (inside : S o) (f : Object → Object) :
    c.Spares S { c with heap := c.heap.modify o f } := by
  have found (p : ObjectId) : (c.heap.modify o f).get? p = _ := Heap.get?_modify c.heap o p f
  refine ⟨fun p live => ?_, fun p _ out => ?_⟩
  · show ((c.heap.modify o f).get? p).isSome
    rw [found]
    split
    next same =>
      subst same
      rw [Option.isSome_map]
      exact live
    next => exact live
  · refine (found p).trans (if_neg ?_)
    rintro rfl
    exact out inside

end Context

namespace Update

open Context

variable {S : ObjectId → Prop} {α β : Type} {c c' : Context} {o : ObjectId}

/-- The update gives the same answer on both contexts and keeps them alike; all it changes
lies in the region. -/
def Tracks (S : ObjectId → Prop) (c c' : Context) (u : Update α) : Prop :=
  ∃ a c₁ c₁', u c = some (a, c₁) ∧ u c' = some (a, c₁') ∧
    c₁.Alike S c₁' ∧ c.Spares S c₁ ∧ c'.Spares S c₁'

theorem Rewrites.tracks {same : Context → Context → Prop} {given : List ObjectId} {u : Update α}
    (rewrites : Rewrites same o given u) (alike : c.Alike S c') (inside : S o)
    (own : same c c) (other : same c c') (stored : ∀ t ∈ given, S t) : Tracks S c c' u := by
  obtain ⟨v, ⟨a, f, keeps, runs⟩, equal⟩ := rewrites c
  refine ⟨a, _, _, (equal c own).trans (runs c), (equal c' other).trans (runs c'),
    alike.modify inside fun x found t here => ?_, spares_modify inside f, spares_modify inside f⟩
  exact (keeps x found t here).imp_right (stored t)

theorem Tracks.map {u : Update α} (tracks : Tracks S c c' u) (f : α → β) :
    Tracks S c c' (f <$> u) := by
  obtain ⟨a, c₁, c₁', ran, ran', rest⟩ := tracks
  refine ⟨f a, c₁, c₁', ?_, ?_, rest⟩
  · rw [map_eq_pure_bind, bind_of_some ran]
    rfl
  · rw [map_eq_pure_bind, bind_of_some ran']
    rfl

theorem tracks_intern (alike : c.Alike S c') (text : String) : Tracks S c c' (intern text) := by
  have atoms : c'.atoms = c.atoms := by rw [alike.rest]
  refine ⟨_, { c with atoms := (c.atoms.intern text).2 },
    { c' with atoms := (c.atoms.intern text).2 }, rfl, ?_, ?_, ⟨fun _ => id, fun _ _ _ => rfl⟩,
    ⟨fun _ => id, fun _ _ _ => rfl⟩⟩
  · rw [← atoms]
    rfl
  · exact { alike with rest := by rw [alike.rest] }

theorem tracks_key (alike : c.Alike S c') (name : String) : Tracks S c c' (key name) := by
  unfold key
  split
  · exact ⟨_, c, c', rfl, rfl, alike, .refl S c, .refl S c'⟩
  · exact (tracks_intern alike name).map _

/-! Updates that allocate. -/

variable {c₀ c₁ : Context} {e : ObjectId} {x : Object} {heap : Heap}

theorem stored_of_resemble (resemble : Resemble S c₀ c c')
    (stored : c.heap.alloc? x = some (e, heap)) (y : Object) :
    ∃ e' heap', c'.heap.alloc? y = some (e', heap') := by
  have some : 0 < c.heap.room := Heap.alloc?_isSome_iff.1 (Option.isSome_iff_exists.2 ⟨_, stored⟩)
  obtain ⟨⟨e', heap'⟩, stored'⟩ := Option.isSome_iff_exists.1
    (Heap.alloc?_isSome_iff.2 (Nat.lt_of_lt_of_le some resemble.room) : (c'.heap.alloc? y).isSome)
  exact ⟨e', heap', stored'⟩

theorem room_of_resemble (resemble : Resemble S c₀ c c') {y : Object} {e' : ObjectId} {heap' : Heap}
    (stored : c.heap.alloc? x = some (e, heap)) (stored' : c'.heap.alloc? y = some (e', heap')) :
    heap.room ≤ heap'.room := by
  have := resemble.room
  have := resemble.valid.room_alloc stored
  have := resemble.valid'.room_alloc stored'
  omega

theorem report_resembles (resemble : Resemble S c₀ c c') {kind : ErrorKind} {message : String}
    {a : Unit} (ran : report kind message c = some (a, c₁)) :
    ∃ c₁', report kind message c' = some ((), c₁') ∧ Resemble S c₀ c₁ c₁' := by
  cases stored : c.heap.alloc? (blankError kind message) with
  | none => cases (report_eq_none stored).symm.trans ran
  | some result =>
    obtain ⟨e, heap⟩ := result
    obtain ⟨e', heap', stored'⟩ := stored_of_resemble resemble stored (blankError kind message)
    obtain ⟨f, reports⟩ := report_eq stored
    obtain ⟨f', reports'⟩ := report_eq stored'
    obtain ⟨-, rfl⟩ := Prod.mk.inj (Option.some.inj (ran.symm.trans reports))
    refine ⟨_, reports', resemble.apart ((reported resemble.valid reports).spares resemble.valid)
      ((reported resemble.valid' reports').spares resemble.valid')
      ((resemble.valid.alloc stored).modify e f) ((resemble.valid'.alloc stored').modify e' f')
      ?_ (by rw [resemble.rest])⟩
    rw [Heap.room_modify, Heap.room_modify]
    exact room_of_resemble resemble stored stored'

theorem newObject_resembles (resemble : Resemble S c₀ c c') {proto : Option ObjectId}
    (ran : newObject proto c = some (e, c₁)) :
    ∃ e' c₁', newObject proto c' = some (e', c₁') ∧ Resemble S c₀ c₁ c₁' ∧
      c.Spares S c₁ ∧ c'.Spares S c₁' := by
  obtain ⟨⟨_, heap⟩, stored, ⟨⟩⟩ := Option.map_eq_some_iff.1 ran
  obtain ⟨e', heap', stored'⟩ := stored_of_resemble resemble stored { prototype := proto }
  have spares {T : ObjectId → Prop} : c.Spares T { c with heap } :=
    spares_of_fresh (resemble.valid.alloc_fresh stored) fun o other =>
      (resemble.valid.get?_alloc stored o).trans (if_neg other)
  have spares' {T : ObjectId → Prop} : c'.Spares T { c' with heap := heap' } :=
    spares_of_fresh (resemble.valid'.alloc_fresh stored') fun o other =>
      (resemble.valid'.get?_alloc stored' o).trans (if_neg other)
  refine ⟨e', _, alloc_of_stored stored', ?_, spares, spares'⟩
  exact resemble.apart spares spares' (resemble.valid.alloc stored)
    (resemble.valid'.alloc stored') (room_of_resemble resemble stored stored')
    (by rw [resemble.rest])

end Update

end ProxyEngine
