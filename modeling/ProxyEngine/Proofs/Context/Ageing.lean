import ProxyEngine.Proofs.Context.Steps

/-! What time does to a context. Handles once handed out stay so, a handle that
died never names an object again, and a live object keeps its kind but for the
private and reserved slots of a proxy. Unless a collection takes place, no
object dies at all. -/

namespace ProxyEngine

/-- What never changes about an object: its kind, without the slots of a proxy. -/
def ObjectKind.nature : ObjectKind → ObjectKind
  | .proxy s => .proxy { s with privateValue := .undefined, reserved := [] }
  | kind => kind

def Object.handler? (x : Object) : Option Handler :=
  x.proxy?.map ProxyState.handler

theorem Object.handler?_of_nature {x y : Object} (same : x.kind.nature = y.kind.nature) :
    x.handler? = y.handler? := by
  unfold handler? proxy?
  cases kind : x.kind <;> cases kind' : y.kind <;> simp_all [ObjectKind.nature]

theorem Object.Change.nature {c : Context} {o : ObjectId} {x y : Object}
    (change : x.Change c o y) : y.kind.nature = x.kind.nature := by
  cases change with
  | setPrivate v kind => simp [kind, ObjectKind.nature]
  | setReserved n v kind => simp [kind, ObjectKind.nature]
  | _ => rfl

namespace Heap

/-- The heap `h` some time later. -/
structure Ages (h h' : Heap) : Prop where
  valid : h'.Valid
  issued : ∀ o, h.Issued o → h'.Issued o
  stale : ∀ o, h.Issued o → h.get? o = none → h'.get? o = none
  nature : ∀ o x x', h.get? o = some x → h'.get? o = some x' → x'.kind.nature = x.kind.nature

variable {h h' h'' : Heap} {o : ObjectId} {x : Object}

theorem Valid.ages_refl (valid : h.Valid) : h.Ages h where
  valid := valid
  issued _ issued := issued
  stale _ _ dead := dead
  nature o x x' found found' := by
    rw [Option.some.inj (found.symm.trans found')]

theorem Ages.trans (valid : h.Valid) (first : h.Ages h') (second : h'.Ages h'') :
    h.Ages h'' where
  valid := second.valid
  issued o issued := second.issued o (first.issued o issued)
  stale o issued dead := second.stale o (first.issued o issued) (first.stale o issued dead)
  nature o x x'' found found'' := by
    have issued := first.issued o (valid.issued_of_live found)
    cases found' : h'.get? o with
    | none =>
      rw [second.stale o issued found'] at found''
      cases found''
    | some x' => exact (second.nature o _ _ found' found'').trans (first.nature o _ _ found found')

theorem Valid.ages_alloc (valid : h.Valid) (stored : h.alloc? x = some (o, h')) : h.Ages h' := by
  refine ⟨valid.alloc stored, fun p issued => ?_, fun p issued dead => ?_, ?_⟩
  · exact (valid.issued_alloc stored).2 (.inr issued)
  · have other : p ≠ o := fun same => valid.not_issued_alloc stored (same ▸ issued)
    rw [valid.get?_alloc stored, if_neg other, dead]
  · intro p y y' found found'
    have other : p ≠ o := by
      rintro rfl
      rw [valid.alloc_fresh stored] at found
      cases found
    rw [valid.get?_alloc stored, if_neg other] at found'
    rw [Option.some.inj (found.symm.trans found')]

theorem Valid.ages_modify (valid : h.Valid) {f : Object → Object} (found : h.get? o = some x)
    (keeps : (f x).kind.nature = x.kind.nature) : h.Ages (h.modify o f) := by
  refine ⟨valid.modify o f, fun p issued => (issued_modify h f).2 issued, fun p _ dead => ?_, ?_⟩
  · rw [get?_modify]
    by_cases same : p = o
    · rw [same, found] at dead
      cases dead
    · rw [if_neg same, dead]
  · intro p y y' old new
    rw [get?_modify] at new
    by_cases same : p = o
    · rw [if_pos same, found] at new
      obtain rfl := Option.some.inj new
      rw [same, found] at old
      obtain rfl := Option.some.inj old
      exact keeps
    · rw [if_neg same] at new
      rw [Option.some.inj (old.symm.trans new)]

theorem Ages.reset (ages : h.Ages h') : h.Ages { h' with allocatedSinceGc := 0 } where
  valid := ⟨ages.valid.slots_le, ages.valid.free_nodup, ages.valid.free_empty,
    ages.valid.retired, ages.valid.live_eq⟩
  issued := ages.issued
  stale := ages.stale
  nature := ages.nature

theorem Valid.ages_release (valid : h.Valid) (o : ObjectId) : h.Ages (h.release o).2 := by
  refine ⟨valid.release o, fun p issued => (valid.issued_release o).2 issued,
    fun p _ dead => ?_, ?_⟩
  · rw [get?_release, dead]
    split <;> rfl
  · intro p y y' old new
    rw [get?_release] at new
    split at new
    · cases new
    · rw [Option.some.inj (old.symm.trans new)]

end Heap

namespace Context

def released (c : Context) (o : ObjectId) : Context :=
  { c with heap := (c.heap.release o).2 }

theorem releaseAll_cons (c : Context) (o : ObjectId) (os : List ObjectId) :
    c.releaseAll (o :: os) =
      (if c.isLive o then ((c.released o).releaseAll os).1 + 1
        else ((c.released o).releaseAll os).1, ((c.released o).releaseAll os).2) := by
  rw [isLive, Heap.isLive, ← Heap.release_fst]
  rfl

theorem released_get? (c : Context) (o p : ObjectId) :
    (c.released o).get? p = if p = o then none else c.get? p :=
  Heap.get?_release c.heap o p

theorem releaseAll_get? (c : Context) (os : List ObjectId) (p : ObjectId) :
    (c.releaseAll os).2.get? p = if p ∈ os then none else c.get? p := by
  induction os generalizing c with
  | nil => simp [releaseAll]
  | cons o os ih =>
    rw [releaseAll_cons, ih, released_get?]
    by_cases same : p = o <;> simp [same]

theorem releaseAll_rest (c : Context) (os : List ObjectId) :
    (c.releaseAll os).2 = { c with heap := (c.releaseAll os).2.heap } := by
  induction os generalizing c with
  | nil => rfl
  | cons o os ih =>
    rw [releaseAll_cons]
    exact ih (c.released o)

theorem releaseAll_ages {c : Context} (valid : c.heap.Valid) (os : List ObjectId) :
    c.heap.Ages (c.releaseAll os).2.heap := by
  induction os generalizing c with
  | nil => exact valid.ages_refl
  | cons o os ih =>
    have first : c.heap.Ages (c.released o).heap := valid.ages_release o
    rw [releaseAll_cons]
    exact first.trans valid (ih first.valid)

theorem releaseAll_count {c : Context} {os : List ObjectId} (nodup : os.Nodup)
    (live : ∀ o ∈ os, c.isLive o) : (c.releaseAll os).1 = os.length := by
  induction os generalizing c with
  | nil => rfl
  | cons o os ih =>
    obtain ⟨unlisted, nodup⟩ := List.nodup_cons.1 nodup
    have later : ∀ p ∈ os, (c.released o).isLive p := by
      intro p listed
      have other : p ≠ o := fun same => unlisted (same ▸ listed)
      have alive := live p (.tail _ listed)
      simpa [isLive, Heap.isLive, released, Heap.get?_release, other] using alive
    rw [releaseAll_cons, if_pos (live o (.head _)), ih nodup later, List.length_cons]

/-- The context `c` some time later. -/
structure Ages (c c' : Context) : Prop where
  heap : c.heap.Ages c'.heap
  options : c'.options = c.options
  collections : c.stats.collections ≤ c'.stats.collections
  /-- Without a collection the books stay as they are and no object dies. -/
  quiet : c'.stats.collections = c.stats.collections →
    c'.stats = c.stats ∧ ∀ o, c.isLive o → c'.isLive o

theorem handler?_eq (c : Context) (o : ObjectId) :
    c.handler? o = (c.get? o).bind Object.handler? := by
  unfold handler? proxy?
  cases c.get? o <;> rfl

theorem isProxy_eq (c : Context) (o : ObjectId) : c.isProxy o = (c.handler? o).isSome := by
  simp [isProxy, handler?]

variable {c c' c'' : Context} {o : ObjectId}

theorem isLive_of_handler? {h : Handler} (handler : c.handler? o = some h) : c.isLive o = true := by
  rw [handler?_eq] at handler
  obtain ⟨x, found, -⟩ := Option.bind_eq_some_iff.1 handler
  exact Option.isSome_iff_exists.2 ⟨x, found⟩

theorem Ages.handler?_of_live (ages : c.Ages c') (before : c.isLive o) (after : c'.isLive o) :
    c'.handler? o = c.handler? o := by
  obtain ⟨x, found⟩ := Option.isSome_iff_exists.1 before
  obtain ⟨x', found'⟩ := Option.isSome_iff_exists.1 after
  have nature := ages.heap.nature o x x' found found'
  rw [handler?_eq, handler?_eq, get?, get?, found, found']
  exact Object.handler?_of_nature nature

theorem isLive_of_isProxy (proxy : c.isProxy o = true) : c.isLive o = true := by
  rw [isProxy_eq] at proxy
  obtain ⟨h, handler⟩ := Option.isSome_iff_exists.1 proxy
  exact isLive_of_handler? handler

theorem Ages.isProxy_of_live (ages : c.Ages c') (before : c.isLive o) (after : c'.isLive o) :
    c'.isProxy o = c.isProxy o := by
  rw [isProxy_eq, isProxy_eq, ages.handler?_of_live before after]

theorem ages_refl (valid : c.heap.Valid) : c.Ages c :=
  ⟨valid.ages_refl, rfl, Nat.le_refl _, fun _ => ⟨rfl, fun _ live => live⟩⟩

theorem Ages.trans (valid : c.heap.Valid) (first : c.Ages c') (second : c'.Ages c'') :
    c.Ages c'' := by
  refine ⟨first.heap.trans valid second.heap, second.options.trans first.options,
    Nat.le_trans first.collections second.collections, fun same => ?_⟩
  have early := first.collections
  have late := second.collections
  obtain ⟨stats, live⟩ := first.quiet (by omega)
  obtain ⟨stats', live'⟩ := second.quiet (by omega)
  exact ⟨stats'.trans stats, fun o alive => live' o (live o alive)⟩

theorem ages_of_kept (heap : c.heap.Ages c'.heap) (options : c'.options = c.options)
    (stats : c'.stats = c.stats) (live : ∀ o, c.isLive o → c'.isLive o) : c.Ages c' :=
  ⟨heap, options, Nat.le_of_eq (by rw [stats]), fun _ => ⟨stats, live⟩⟩

theorem Edit.ages (edit : c.Edit c') (valid : c.heap.Valid) : c.Ages c' := by
  cases edit with
  | alloc kind prototype stored =>
    refine ages_of_kept (valid.ages_alloc stored) rfl rfl fun p live => ?_
    simp only [isLive, Heap.isLive, valid.get?_alloc stored] at live ⊢
    split
    · rfl
    · exact live
  | change f found change =>
    refine ages_of_kept (valid.ages_modify found change.nature) rfl rfl fun p live => ?_
    simp only [isLive, Heap.isLive, Heap.get?_modify] at live ⊢
    split
    next same => simpa [same] using live
    next => exact live
  | _ => exact ages_of_kept valid.ages_refl rfl rfl fun _ live => live

theorem Edits.depth (edits : c.Edits c') : c'.depth = c.depth := by
  induction edits with
  | refl => rfl
  | tail _ edit ih => cases edit <;> exact ih

theorem Edits.options (edits : c.Edits c') : c'.options = c.options := by
  induction edits with
  | refl => rfl
  | tail _ edit ih => cases edit <;> exact ih

theorem Edits.stats (edits : c.Edits c') : c'.stats = c.stats := by
  induction edits with
  | refl => rfl
  | tail _ edit ih => cases edit <;> exact ih

theorem Step.ages (step : c.Step c') (valid : c.heap.Valid) : c.Ages c' := by
  cases step with
  | edit edit => exact edit.ages valid
  | sweep dead marked =>
    have ages := releaseAll_ages valid dead
    rw [releaseAll_rest]
    refine ⟨ages.reset, rfl, Nat.le_succ _, fun same => ?_⟩
    exact absurd same (Nat.succ_ne_self _)
  | _ => exact ages_of_kept valid.ages_refl rfl rfl fun _ live => live

theorem Reaches.ages (reaches : c.Reaches c') (valid : c.heap.Valid) : c.Ages c' := by
  induction reaches with
  | refl => exact ages_refl valid
  | tail _ step ages => exact ages.trans valid (step.ages ages.heap.valid)

theorem Edits.live (edits : c.Edits c') (valid : c.heap.Valid) (alive : c.isLive o) :
    c'.isLive o :=
  ((edits.reaches.ages valid).quiet (by rw [edits.stats])).2 o alive

theorem mem_intrinsics (options : ContextOptions) {x : Object}
    (found : (create options).get? o = some x) : x ∈ intrinsics := by
  have slot := Heap.get?_eq_some_iff.1 found
  have stored := Array.mem_of_getElem? slot
  simp only [create, List.mem_toArray, List.mem_map] at stored
  obtain ⟨y, listed, same⟩ := stored
  exact Option.some.inj (congrArg HeapSlot.object same) ▸ listed

theorem create_valid (options : ContextOptions) : (create options).heap.Valid where
  slots_le := by simp [create, intrinsics, Heap.maxSlots]
  free_nodup := List.nodup_nil
  free_empty := by simp [create]
  retired i g slot := by
    have occupied : ∀ s ∈ (create options).heap.slots, s.object ≠ none := by
      simp [create, intrinsics]
    exact absurd rfl (occupied _ (Array.mem_of_getElem? slot))
  live_eq := rfl

theorem Reachable.valid (reachable : c.Reachable) : c.heap.Valid := by
  obtain ⟨options, reaches⟩ := reachable
  exact (reaches.ages (create_valid options)).heap.valid

theorem Reachable.ages (reachable : c.Reachable) (reaches : c.Reaches c') : c.Ages c' :=
  reaches.ages reachable.valid

end Context

end ProxyEngine
