import ProxyEngine.Context.Update

/-! Reporting an error and assigning a property do not look at the dispatch depth:
run at another depth they answer the same and leave the same context but for it. -/

namespace ProxyEngine.Update

variable {α β : Type}

/-- The update neither reads nor changes the dispatch depth. -/
def Level (u : Update α) : Prop :=
  ∀ (c : Context) (d : Nat),
    u { c with depth := d } = (u c).map fun p => (p.1, { p.2 with depth := d })

theorem Level.depth {u : Update α} (level : Level u) {c c' : Context} {a : α}
    (ran : u c = some (a, c')) : c'.depth = c.depth := by
  have same := level c c.depth
  rw [show u { c with depth := c.depth } = u c from rfl, ran, Option.map_some, Option.some.injEq,
    Prod.mk.injEq] at same
  rw [same.2]

theorem Level.pure (a : α) : Level (pure a) :=
  fun _ _ => rfl

theorem Level.bind {u : Update α} {f : α → Update β} (first : Level u)
    (rest : ∀ a, Level (f a)) : Level (u >>= f) := by
  intro c d
  show (u { c with depth := d }).bind (fun p => f p.1 p.2) =
    ((u c).bind fun p => f p.1 p.2).map _
  rw [first]
  cases u c with
  | none => rfl
  | some p => exact rest p.1 p.2 d

theorem Level.map {u : Update α} (level : Level u) (f : α → β) : Level (f <$> u) := by
  rw [map_eq_pure_bind]
  exact level.bind fun a => .pure _

theorem Level.look {f : Context → Update α}
    (same : ∀ (c : Context) (d : Nat), f { c with depth := d } = f c)
    (rest : ∀ c, Level (f c)) : Level (get >>= f) := by
  intro c d
  show f { c with depth := d } { c with depth := d } = (f c c).map _
  rw [same]
  exact rest c c d

theorem level_alloc (x : Object) : Level (alloc x) := by
  intro c d
  unfold alloc
  cases c.heap.alloc? x <;> rfl

theorem level_intern (s : String) : Level (intern s) :=
  fun _ _ => rfl

theorem level_key (name : String) : Level (key name) := by
  unfold key
  split
  · exact .pure _
  · exact (level_intern name).map _

theorem level_modifyObject (o : ObjectId) (f : Object → Object) : Level (modifyObject o f) :=
  fun _ _ => rfl

theorem level_setPending (v : Value) : Level (setPending v) :=
  fun _ _ => rfl

theorem level_defineStored (o : ObjectId) (k : PropertyKey) (desc : Descriptor) :
    Level (defineStored o k desc) := by
  refine .look (fun _ _ => rfl) fun c => ?_
  split
  · exact .pure _
  · split
    · split
      · exact (level_modifyObject _ _).bind fun _ => .pure _
      · exact .pure _
    · split
      · exact (level_modifyObject _ _).bind fun _ => .pure _
      · exact .pure _

def assignStored (o : ObjectId) (k : PropertyKey) (v : Value) : Update Outcome := do
  match (← get).ownDescriptor? o k with
  | some own =>
    if own.isAccessor then return .refused .cantRedefineProperty
    else if !own.isWritable then return .refused .readOnly
    else defineStored o k (.valueOnly v)
  | none => defineStored o k (.ofData v)

theorem level_assignStored (o : ObjectId) (k : PropertyKey) (v : Value) :
    Level (assignStored o k v) := by
  refine .look (fun _ _ => rfl) fun c => ?_
  split
  · split
    · exact .pure _
    · split
      · exact .pure _
      · exact level_defineStored _ _ _
  · exact level_defineStored _ _ _

theorem level_report (kind : ErrorKind) (message : String) : Level (report kind message) :=
  (level_alloc _).bind fun _ => (level_key _).bind fun _ =>
    ((level_intern _).map _).bind fun _ => ((level_defineStored _ _ _).map _).bind fun _ =>
      level_setPending _

/-! Neither do they need room on the heap to store. -/

theorem get_bind (f : Context → Update α) (c : Context) : (get >>= f) c = f c c := rfl

theorem defineStored_isSome (o : ObjectId) (k : PropertyKey) (desc : Descriptor) (c : Context) :
    (defineStored o k desc c).isSome := by
  rw [defineStored, get_bind]
  cases c.get? o with
  | none => rfl
  | some x =>
    dsimp only
    cases x.properties.get? k with
    | none => cases x.extensible <;> rfl
    | some current =>
      dsimp only
      cases current.redefine desc <;> rfl

theorem assignStored_isSome (o : ObjectId) (k : PropertyKey) (v : Value) (c : Context) :
    (assignStored o k v c).isSome := by
  rw [assignStored, get_bind]
  cases c.ownDescriptor? o k with
  | none => exact defineStored_isSome _ _ _ _
  | some own =>
    dsimp only
    cases own.isAccessor with
    | true => rfl
    | false =>
      cases own.isWritable with
      | true => exact defineStored_isSome _ _ _ _
      | false => rfl

end ProxyEngine.Update
