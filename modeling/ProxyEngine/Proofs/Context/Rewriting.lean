import ProxyEngine.Proofs.Context.Provenance
import ProxyEngine.Proofs.Context.Room

/-! Updates of one stored object. What such an update answers and how it rewrites the
object is settled by a part of the context; the rest of the context is neither read nor
changed. Reporting an error is an allocation, two interned texts and such an update
of the new object. -/

namespace ProxyEngine

namespace Heap

theorem modify_id (h : Heap) (o : ObjectId) : h.modify o id = h := by
  cases found : h.get? o with
  | none => exact modify_of_dead found id
  | some x => exact modify_of_fixed found rfl

end Heap

namespace Update

variable {α : Type} {o : ObjectId} {given : List ObjectId} {c₀ : Context}

/-- The update gives one and the same answer on every context and rewrites `o` in one and the
same way, which adds no handles to the object that `c₀` has there but the `given` ones. -/
def RewritesAt (c₀ : Context) (o : ObjectId) (given : List ObjectId) (u : Update α) : Prop :=
  ∃ a f, (∀ x, c₀.get? o = some x → ∀ t ∈ (f x).references, t ∈ x.references ∨ t ∈ given) ∧
    ∀ c, u c = some (a, { c with heap := c.heap.modify o f })

/-- On contexts that are the same for it the update does the same to the object, and nothing
else. -/
def Rewrites (same : Context → Context → Prop) (o : ObjectId) (given : List ObjectId)
    (u : Update α) : Prop :=
  ∀ c₀, ∃ v, RewritesAt c₀ o given v ∧ ∀ c, same c₀ c → u c = v c

theorem rewritesAt_pure (a : α) : RewritesAt c₀ o given (pure a) :=
  ⟨a, id, fun _ _ _ => .inl, fun c => by rw [Heap.modify_id]; rfl⟩

theorem rewritesAt_modify {f : Object → Object} {a : α}
    (keeps : ∀ x, c₀.get? o = some x → ∀ t ∈ (f x).references, t ∈ x.references ∨ t ∈ given) :
    RewritesAt c₀ o given (do modifyObject o f; return a) :=
  ⟨a, f, keeps, fun _ => rfl⟩

theorem rewrites_look {same : Context → Context → Prop} {g : Context → Update α}
    (reads : ∀ c₀ c, same c₀ c → g c = g c₀) (branch : ∀ c₀, RewritesAt c₀ o given (g c₀)) :
    Rewrites same o given (get >>= g) := by
  refine fun c₀ => ⟨g c₀, branch c₀, fun c alike => ?_⟩
  rw [get_bind, reads c₀ c alike]

def Sees (o : ObjectId) (c₀ c : Context) : Prop :=
  c.get? o = c₀.get? o

theorem rewrites_modifyObject {f : Object → Object}
    (keeps : ∀ x, ∀ t ∈ (f x).references, t ∈ x.references) :
    Rewrites (Sees o) o [] (modifyObject o f) :=
  fun _ => ⟨_, ⟨(), f, fun x _ t here => .inl (keeps x t here), fun _ => rfl⟩, fun _ _ => rfl⟩

theorem rewrites_defineStored (o : ObjectId) (k : PropertyKey) (d : Descriptor) :
    Rewrites (Sees o) o d.handles (defineStored o k d) := by
  refine rewrites_look (fun c₀ c same => by rw [show c.get? o = c₀.get? o from same]) fun c₀ => ?_
  cases found : c₀.get? o with
  | none => exact rewritesAt_pure _
  | some x =>
    dsimp only
    have self {y : Object} (same : c₀.get? o = some y) : y = x :=
      Option.some.inj (same.symm.trans found)
    cases stored : x.properties.get? k with
    | some current =>
      dsimp only
      cases redefined : current.redefine d with
      | error r => exact rewritesAt_pure _
      | ok p =>
        refine rewritesAt_modify fun y same t here => ?_
        cases self same
        refine (Object.references_insert here).elim .inl fun new => ?_
        exact (Object.references_redefine redefined new).imp_left
          (Object.references_of_lookup stored)
    | none =>
      cases x.extensible with
      | false => exact rewritesAt_pure _
      | true =>
        refine rewritesAt_modify fun y _ t here => ?_
        exact (Object.references_insert here).imp_right Object.references_ofDescriptor

theorem rewrites_deleteStored (o : ObjectId) (k : PropertyKey) :
    Rewrites (Sees o) o [] (deleteStored o k) := by
  refine rewrites_look (fun c₀ c same => ?_) fun c₀ => ?_
  · rw [Context.ownProperty?, Context.ownProperty?, show c.get? o = c₀.get? o from same]
  · split
    · exact rewritesAt_pure _
    · split
      · exact rewritesAt_modify fun y _ t here => .inl (Object.references_erase here)
      · exact rewritesAt_pure _

def Climbs (o : ObjectId) (proto : Option ObjectId) (c₀ c : Context) : Prop :=
  c.get? o = c₀.get? o ∧ c.prototypeWalkMeets o (c.heap.slotCount + 1) proto =
    c₀.prototypeWalkMeets o (c₀.heap.slotCount + 1) proto

theorem rewrites_storePrototype (o : ObjectId) (proto : Option ObjectId) :
    Rewrites (Climbs o proto) o proto.toList (storePrototype o proto) := by
  refine rewrites_look (fun c₀ c same => by rw [same.1, same.2]) fun c₀ => ?_
  cases c₀.get? o with
  | none => exact rewritesAt_pure _
  | some x =>
    dsimp only
    split
    · exact rewritesAt_pure _
    · split
      · exact rewritesAt_pure _
      · refine rewritesAt_modify fun y _ t here => ?_
        rw [Object.mem_references_iff] at here ⊢
        obtain own | rest := here
        · exact .inr (Option.mem_toList.2 own)
        · exact .inl (.inr rest)

section

variable {k : PropertyKey} {p current : Property} {d : Descriptor} {c : Context} {x : Object}

def putProperty (c : Context) (o : ObjectId) (k : PropertyKey) (p : Property) : Context :=
  { c with heap := c.heap.modify o fun x => { x with properties := x.properties.insert k p } }

theorem defineStored_fresh (found : c.get? o = some x) (stored : x.properties.get? k = none) :
    defineStored o k d c =
      if x.extensible then some (.ok, putProperty c o k (.ofDescriptor d))
      else some (.refused .notExtensible, c) := by
  rw [defineStored, get_bind, found]
  dsimp only
  rw [stored]
  cases x.extensible <;> rfl

theorem defineStored_redefined (found : c.get? o = some x)
    (stored : x.properties.get? k = some current) (redefined : current.redefine d = .ok p) :
    defineStored o k d c = some (.ok, putProperty c o k p) := by
  rw [defineStored, get_bind, found]
  dsimp only
  rw [stored]
  dsimp only
  rw [redefined]
  rfl

theorem defineStored_clashing {why : Refusal} (found : c.get? o = some x)
    (stored : x.properties.get? k = some current) (clashing : current.redefine d = .error why) :
    defineStored o k d c = some (.refused why, c) := by
  rw [defineStored, get_bind, found]
  dsimp only
  rw [stored]
  dsimp only
  rw [clashing]
  rfl

end

end Update

/-! Reports. -/

namespace Context

/-- An error was reported: it is a new object and the pending exception, and two texts were
interned. Everything else is as it was. -/
structure Reported (c : Context) (kind : ErrorKind) (message : String) (c' : Context) : Prop where
  rest : c' = { c with heap := c'.heap, atoms := c'.atoms, pending := c'.pending }
  atoms : c'.atoms = ((c.atoms.intern "name").2.intern kind.name).2
  error : ∃ e, ¬ c.heap.Issued e ∧ c'.pending = some (.object e) ∧
    c'.errorInfo? e = some (kind, message) ∧ ∀ o, o ≠ e → c'.get? o = c.get? o

end Context

namespace Update

variable {β : Type} {kind : ErrorKind} {message : String} {c c' : Context}

theorem bind_of_some {u : Update α} {f : α → Update β} {a : α} {c₁ : Context}
    (ran : u c = some (a, c₁)) : (u >>= f) c = f a c₁ := by
  show (u c).bind (fun p => f p.1 p.2) = _
  rw [ran]
  rfl

theorem key_eq {name : String} (spelled : PropertyKey.parseIndex? name = none) (c : Context) :
    key name c = some (.atom (c.atoms.intern name).1,
      { c with atoms := (c.atoms.intern name).2 }) := by
  unfold key
  rw [spelled]
  rfl

def blankError (kind : ErrorKind) (message : String) : Object :=
  { kind := .error kind message, prototype := some Context.objectPrototype }

theorem alloc_of_stored {e : ObjectId} {heap : Heap} {x : Object}
    (stored : c.heap.alloc? x = some (e, heap)) : alloc x c = some (e, { c with heap }) := by
  rw [alloc, stored]
  rfl

theorem report_of_defined {e : ObjectId} {heap : Heap} {f : Object → Object} {out : Outcome}
    (stored : c.heap.alloc? (blankError kind message) = some (e, heap))
    (defined : defineStored e (.atom (c.atoms.intern "name").1)
      (.ofData (.string ((c.atoms.intern "name").2.intern kind.name).1) .hidden)
      { c with heap, atoms := ((c.atoms.intern "name").2.intern kind.name).2 } =
      some (out, { c with
        heap := heap.modify e f, atoms := ((c.atoms.intern "name").2.intern kind.name).2 })) :
    report kind message c = some ((), { c with
      heap := heap.modify e f
      atoms := ((c.atoms.intern "name").2.intern kind.name).2
      pending := some (.object e) }) := by
  have named : newString kind.name { c with heap, atoms := (c.atoms.intern "name").2 } =
      some (.string ((c.atoms.intern "name").2.intern kind.name).1,
        { c with heap, atoms := ((c.atoms.intern "name").2.intern kind.name).2 }) := rfl
  have forgotten : discard (defineStored e (.atom (c.atoms.intern "name").1)
      (.ofData (.string ((c.atoms.intern "name").2.intern kind.name).1) .hidden))
      { c with heap, atoms := ((c.atoms.intern "name").2.intern kind.name).2 } =
      some ((), { c with
        heap := heap.modify e f, atoms := ((c.atoms.intern "name").2.intern kind.name).2 }) := by
    show (defineStored _ _ _ _).bind _ = _
    rw [defined]
    rfl
  refine (bind_of_some (alloc_of_stored stored)).trans ?_
  rw [bind_of_some (key_eq (by decide) _), bind_of_some named, bind_of_some forgotten]
  rfl

theorem report_eq {e : ObjectId} {heap : Heap}
    (stored : c.heap.alloc? (blankError kind message) = some (e, heap)) :
    ∃ f, report kind message c = some ((), { c with
      heap := heap.modify e f
      atoms := ((c.atoms.intern "name").2.intern kind.name).2
      pending := some (.object e) }) := by
  obtain ⟨u, ⟨a, f, -, rewrites⟩, same⟩ := rewrites_defineStored e
    (.atom (c.atoms.intern "name").1)
    (.ofData (.string ((c.atoms.intern "name").2.intern kind.name).1) .hidden)
    { c with heap, atoms := ((c.atoms.intern "name").2.intern kind.name).2 }
  exact ⟨f, report_of_defined stored ((same _ rfl).trans (rewrites _))⟩

theorem report_eq_none (refused : c.heap.alloc? (blankError kind message) = none) :
    report kind message c = none := by
  show (alloc (blankError kind message) c).bind _ = none
  rw [alloc, refused]
  rfl

theorem reported (valid : c.heap.Valid) {a : Unit} (ran : report kind message c = some (a, c')) :
    c.Reported kind message c' := by
  obtain ⟨e, pending, info⟩ := errorInfo?_of_report valid ran
  cases stored : c.heap.alloc? (blankError kind message) with
  | none =>
    rw [report_eq_none stored] at ran
    cases ran
  | some result =>
    obtain ⟨e', heap⟩ := result
    obtain ⟨f, reported⟩ := report_eq stored
    obtain ⟨-, rfl⟩ := Prod.mk.inj (Option.some.inj (ran.symm.trans reported))
    have same : e' = e := by
      have value : Value.object e' = Value.object e := Option.some.inj pending
      simpa using congrArg Value.asObject? value
    subst same
    refine ⟨rfl, rfl, e', valid.not_issued_alloc stored, pending, info, fun o other => ?_⟩
    show (heap.modify e' f).get? o = c.heap.get? o
    rw [Heap.get?_modify, if_neg other, valid.get?_alloc stored, if_neg other]

def errorObject (c : Context) (kind : ErrorKind) (message : String) : Object :=
  { blankError kind message with
    properties := PropertyTable.empty.insert (.atom (c.atoms.intern "name").1)
      (.data (.string ((c.atoms.intern "name").2.intern kind.name).1) .hidden) }

theorem get?_report (valid : c.heap.Valid) {a : Unit}
    (ran : report kind message c = some (a, c')) {e : ObjectId}
    (pending : c'.pending = some (.object e)) :
    c'.get? e = some (errorObject c kind message) := by
  cases stored : c.heap.alloc? (blankError kind message) with
  | none =>
    rw [report_eq_none stored] at ran
    cases ran
  | some result =>
    obtain ⟨e', heap⟩ := result
    have found : heap.get? e' = some (blankError kind message) := by
      rw [valid.get?_alloc stored, if_pos rfl]
    have defined := defineStored_fresh (o := e') (k := .atom (c.atoms.intern "name").1)
      (d := .ofData (.string ((c.atoms.intern "name").2.intern kind.name).1) .hidden)
      (c := { c with heap, atoms := ((c.atoms.intern "name").2.intern kind.name).2 }) found rfl
    have reported := report_of_defined stored (defined.trans (if_pos rfl))
    obtain ⟨-, rfl⟩ := Prod.mk.inj (Option.some.inj (ran.symm.trans reported))
    have value : Value.object e' = Value.object e := Option.some.inj pending
    have same : e' = e := by simpa using congrArg Value.asObject? value
    subst same
    show (heap.modify e' _).get? e' = _
    rw [Heap.get?_modify, if_pos rfl, found]
    rfl

end Update

end ProxyEngine
