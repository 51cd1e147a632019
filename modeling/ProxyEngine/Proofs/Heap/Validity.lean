import ProxyEngine.Heap
import Mathlib.Data.List.Perm.Subperm

/-! Valid heaps and what each operation does to them.
Every operation rewrites at most one slot, so lookups are settled slot by slot.
`Issued` reads off a heap which handles it ever handed out: those of the
earlier generations of a slot, and its current one unless the slot is waiting
in the free list. -/

namespace ProxyEngine

theorem ObjectId.eq_iff_generation {p o : ObjectId} (slots : p.slot = o.slot) :
    p = o ↔ p.generation = o.generation := by
  cases p
  cases o
  simp_all

theorem Generation.not_lt_first (g : Generation) : ¬ g < first :=
  Nat.not_lt_zero _

theorem Generation.next?_eq_some_iff {g g' : Generation} :
    g.next? = some g' ↔ g'.val = g.val + 1 := by
  have := g'.isLt
  unfold next?
  split <;> simp [Fin.ext_iff] <;> omega

theorem Generation.lt_next_iff {p g g' : Generation} (next : g.next? = some g') :
    p < g' ↔ p < g ∨ p = g := by
  have step := next?_eq_some_iff.1 next
  rw [Fin.lt_def, Fin.lt_def, Fin.ext_iff]
  omega

end ProxyEngine

namespace ProxyEngine.Heap

variable {h h' : Heap} {o p : ObjectId} {x : Object}

theorem get?_eq_some_iff :
    h.get? o = some x ↔ h.slots[o.slot.val]? = some ⟨o.generation, some x⟩ := by
  unfold get?
  cases slot : h.slots[o.slot.val]? with
  | none => simp
  | some s =>
    obtain ⟨g, y⟩ := s
    by_cases same : g = o.generation <;> simp [same]

/-- Slot `i` of `h` becomes `s`, and no other slot changes. -/
def Rewrites (h : Heap) (i : SlotIndex) (s : HeapSlot) (h' : Heap) : Prop :=
  ∀ n : Nat, h'.slots[n]? = if n = i.val then some s else h.slots[n]?

namespace Rewrites

variable {i : SlotIndex} {s : HeapSlot}

theorem at_slot (changed : h.Rewrites i s h') : h'.slots[i.val]? = some s := by
  rw [changed, if_pos rfl]

theorem elsewhere (changed : h.Rewrites i s h') {j : SlotIndex} (other : j ≠ i) :
    h'.slots[j.val]? = h.slots[j.val]? := by
  rw [changed, if_neg fun same => other (Fin.ext same)]

theorem get?_elsewhere (changed : h.Rewrites i s h') (other : o.slot ≠ i) :
    h'.get? o = h.get? o := by
  unfold get?
  rw [changed.elsewhere other]

theorem get?_at (changed : h.Rewrites i s h') (same : o.slot = i) :
    h'.get? o = if s.generation = o.generation then s.object else none := by
  unfold get?
  rw [same, changed.at_slot]

end Rewrites

theorem rewrites_set (free : List SlotIndex) (live count : Nat) {i : SlotIndex}
    (inside : i.val < h.slots.size) (s : HeapSlot) :
    h.Rewrites i s ⟨h.slots.set! i.val s, free, live, count⟩ := by
  intro n
  rw [Array.set!_eq_setIfInBounds, Array.getElem?_setIfInBounds]
  by_cases same : n = i.val
  · simp [same, inside]
  · rw [if_neg (Ne.symm same), if_neg same]

theorem lt_size_of_slot {n : Nat} {s : HeapSlot} (slot : h.slots[n]? = some s) :
    n < h.slots.size :=
  (Array.getElem?_eq_some_iff.1 slot).1

/-! Looking up after a change. -/

theorem rewrites_modify (found : h.get? o = some x) (f : Object → Object) :
    h.Rewrites o.slot ⟨o.generation, some (f x)⟩ (h.modify o f) := by
  have inside := lt_size_of_slot (get?_eq_some_iff.1 found)
  unfold modify
  rw [found]
  exact rewrites_set _ _ _ inside _

theorem modify_of_fixed {f : Object → Object} (found : h.get? o = some x) (fixed : f x = x) :
    h.modify o f = h := by
  obtain ⟨inside, slot⟩ := Array.getElem?_eq_some_iff.1 (get?_eq_some_iff.1 found)
  unfold modify
  rw [found]
  simp only [fixed, ← slot, Array.set!_eq_setIfInBounds, Array.setIfInBounds_def, dif_pos inside,
    Array.set_getElem_self]

@[simp] theorem free_modify (h : Heap) (o : ObjectId) (f : Object → Object) :
    (h.modify o f).free = h.free := by
  unfold modify
  split <;> rfl

@[simp] theorem size_modify (h : Heap) (o : ObjectId) (f : Object → Object) :
    (h.modify o f).slots.size = h.slots.size := by
  unfold modify
  split <;> simp [Array.set!_eq_setIfInBounds]

theorem get?_modify (h : Heap) (o p : ObjectId) (f : Object → Object) :
    (h.modify o f).get? p = if p = o then (h.get? o).map f else h.get? p := by
  cases found : h.get? o with
  | none =>
    rw [modify_of_dead found]
    by_cases same : p = o <;> simp [same, found]
  | some x =>
    have changed := rewrites_modify found f
    by_cases same : p = o
    · subst same
      rw [changed.get?_at rfl]
      simp
    · rw [if_neg same]
      by_cases slots : p.slot = o.slot
      · have generations : o.generation ≠ p.generation := fun g =>
          same ((ObjectId.eq_iff_generation slots).2 g.symm)
        rw [changed.get?_at slots, if_neg generations]
        unfold get?
        rw [slots, get?_eq_some_iff.1 found]
        simp [generations]
      · exact changed.get?_elsewhere slots

@[simp] theorem release_fst (h : Heap) (o : ObjectId) : (h.release o).1 = h.get? o := by
  unfold release
  cases h.get? o with
  | none => rfl
  | some x => cases o.generation.next? <;> rfl

theorem rewrites_release (found : h.get? o = some x) :
    h.Rewrites o.slot ⟨o.generation.next?.getD o.generation, none⟩ (h.release o).2 := by
  have inside := lt_size_of_slot (get?_eq_some_iff.1 found)
  unfold release
  rw [found]
  cases o.generation.next? with
  | none => exact rewrites_set _ _ _ inside _
  | some g => exact rewrites_set _ _ _ inside _

theorem get?_release (h : Heap) (o p : ObjectId) :
    (h.release o).2.get? p = if p = o then none else h.get? p := by
  cases found : h.get? o with
  | none =>
    rw [release_of_dead found]
    by_cases same : p = o <;> simp [same, found]
  | some x =>
    have changed := rewrites_release found
    by_cases slots : p.slot = o.slot
    · have old : h.get? p = if p = o then some x else none := by
        unfold get?
        rw [slots, get?_eq_some_iff.1 found]
        simp [ObjectId.eq_iff_generation slots, eq_comm]
      rw [changed.get?_at slots, old]
      by_cases same : p = o <;> simp [same]
    · rw [changed.get?_elsewhere slots, if_neg fun same => slots (congrArg ObjectId.slot same)]

/-! Live handles. -/

theorem handle?_eq_some_iff {i : SlotIndex} :
    h.handle? i = some o ↔ o.slot = i ∧ ∃ x, h.get? o = some x := by
  simp only [get?_eq_some_iff]
  unfold handle?
  split
  next g x slot =>
    constructor
    · rintro ⟨⟩
      exact ⟨rfl, x, slot⟩
    · rintro ⟨rfl, y, found⟩
      rw [slot] at found
      cases o
      simp_all
  next empty =>
    simp only [reduceCtorEq, false_iff]
    rintro ⟨rfl, y, found⟩
    exact empty _ _ found

theorem slotIndex?_eq_some_iff {n : Nat} {i : SlotIndex} :
    slotIndex? n = some i ↔ n = i.val := by
  unfold slotIndex?
  split
  next lt => simp [Fin.ext_iff]
  next ge =>
    have := i.isLt
    simp only [reduceCtorEq, false_iff]
    omega

theorem mem_ids : o ∈ h.ids ↔ h.isLive o := by
  unfold ids isLive
  simp only [List.mem_filterMap, List.mem_range, Option.bind_eq_some_iff, slotIndex?_eq_some_iff,
    handle?_eq_some_iff, Option.isSome_iff_exists]
  constructor
  · rintro ⟨n, -, i, rfl, rfl, found⟩
    exact found
  · rintro ⟨x, found⟩
    exact ⟨o.slot.val, lt_size_of_slot (get?_eq_some_iff.1 found), o.slot, rfl, rfl, x, found⟩

theorem ids_sorted (h : Heap) : h.ids.Pairwise (·.slot < ·.slot) := by
  unfold ids
  rw [List.pairwise_filterMap]
  refine List.pairwise_lt_range.imp ?_
  intro m n lt a first b second
  simp only [Option.bind_eq_some_iff, slotIndex?_eq_some_iff, handle?_eq_some_iff] at first second
  obtain ⟨i, rfl, rfl, -⟩ := first
  obtain ⟨j, rfl, rfl, -⟩ := second
  exact lt

theorem ids_nodup (h : Heap) : h.ids.Nodup :=
  h.ids_sorted.imp fun {a b} lt same => absurd lt (by simp [same])

/-! Validity. -/

structure Valid (h : Heap) : Prop where
  slots_le : h.slots.size ≤ maxSlots
  free_nodup : h.free.Nodup
  /-- Free slots are empty. -/
  free_empty : ∀ i ∈ h.free, ∃ g, h.slots[i.val]? = some ⟨g, none⟩
  /-- An empty slot that is not free has no generation left. -/
  retired : ∀ (i : SlotIndex) g,
    h.slots[i.val]? = some ⟨g, none⟩ → i ∉ h.free → g.next? = none
  live_eq : h.live = h.ids.length

theorem valid_empty : Valid {} where
  slots_le := Nat.zero_le _
  free_nodup := List.nodup_nil
  free_empty := by simp
  retired := by simp
  live_eq := rfl

theorem Valid.occupied_not_free (valid : h.Valid) (found : h.get? o = some x) :
    o.slot ∉ h.free := by
  intro free
  obtain ⟨g, slot⟩ := valid.free_empty _ free
  rw [get?_eq_some_iff.1 found] at slot
  cases slot

theorem Valid.alloc_cases (valid : h.Valid) (stored : h.alloc? x = some (o, h')) :
    h.Rewrites o.slot ⟨o.generation, some x⟩ h' ∧ h'.live = h.live + 1 ∧
    (h.free = o.slot :: h'.free ∧ h.slots[o.slot.val]? = some ⟨o.generation, none⟩ ∧
        h'.slots.size = h.slots.size ∨
      h.free = [] ∧ h'.free = [] ∧ o.slot.val = h.slots.size ∧ o.generation = .first ∧
        h'.slots.size = h.slots.size + 1 ∧ h.slots.size < maxSlots) := by
  unfold alloc? at stored
  split at stored
  next i rest free =>
    obtain ⟨g, slot⟩ := valid.free_empty i (by simp [free])
    simp only [slot, Option.map_some, Option.getD_some, Option.some.injEq, Prod.mk.injEq] at stored
    obtain ⟨rfl, rfl⟩ := stored
    exact ⟨rewrites_set _ _ _ (lt_size_of_slot slot) _, rfl,
      .inl ⟨free, slot, by simp [counted, Array.set!_eq_setIfInBounds]⟩⟩
  next free =>
    split at stored
    next room =>
      simp only [Option.some.injEq, Prod.mk.injEq] at stored
      obtain ⟨rfl, rfl⟩ := stored
      refine ⟨fun n => ?_, rfl, .inr ⟨free, free, rfl, rfl, by simp [counted], room⟩⟩
      simp only [counted, Array.getElem?_push, ObjectId.first]
      rfl
    next full => cases stored

theorem Valid.alloc_fresh (valid : h.Valid) (stored : h.alloc? x = some (o, h')) :
    h.get? o = none := by
  unfold get?
  obtain ⟨-, -, ⟨-, slot, -⟩ | ⟨-, -, slot, -⟩⟩ := valid.alloc_cases stored
  · simp [slot]
  · simp [slot]

theorem Valid.get?_alloc (valid : h.Valid) (stored : h.alloc? x = some (o, h')) (p : ObjectId) :
    h'.get? p = if p = o then some x else h.get? p := by
  obtain ⟨changed, -, before⟩ := valid.alloc_cases stored
  by_cases slots : p.slot = o.slot
  · have old : p ≠ o → h.get? p = none := by
      intro other
      have generations : o.generation ≠ p.generation := fun g =>
        other ((ObjectId.eq_iff_generation slots).2 g.symm)
      unfold get?
      rw [slots]
      obtain ⟨-, slot, -⟩ | ⟨-, -, slot, -⟩ := before
      · simp [slot, generations]
      · simp [slot]
    rw [changed.get?_at slots]
    by_cases same : p = o
    · simp [same]
    · rw [if_neg same, old same,
        if_neg fun g => same ((ObjectId.eq_iff_generation slots).2 g.symm)]
  · rw [changed.get?_elsewhere slots, if_neg fun same => slots (congrArg ObjectId.slot same)]

theorem alloc?_isSome (room : h.slotCount < maxSlots) (x : Object) : (h.alloc? x).isSome := by
  unfold slotCount at room
  unfold alloc?
  split
  next => rfl
  next => rw [dif_pos room]; rfl

theorem ids_alloc (valid : h.Valid) (stored : h.alloc? x = some (o, h')) :
    h'.ids.Perm (o :: h.ids) := by
  have fresh : o ∉ h.ids := by
    rw [mem_ids, isLive, valid.alloc_fresh stored]
    simp
  rw [List.perm_ext_iff_of_nodup h'.ids_nodup (List.nodup_cons.2 ⟨fresh, h.ids_nodup⟩)]
  intro p
  rw [List.mem_cons, mem_ids, mem_ids, isLive, isLive, valid.get?_alloc stored]
  by_cases same : p = o <;> simp [same]

theorem ids_modify (h : Heap) (o : ObjectId) (f : Object → Object) :
    (h.modify o f).ids.Perm h.ids := by
  rw [List.perm_ext_iff_of_nodup (ids_nodup _) (ids_nodup _)]
  intro p
  rw [mem_ids, mem_ids, isLive, isLive, get?_modify]
  by_cases same : p = o <;> simp [same]

theorem ids_release (found : h.get? o = some x) : h.ids.Perm (o :: (h.release o).2.ids) := by
  have gone : o ∉ (h.release o).2.ids := by
    rw [mem_ids, isLive, get?_release]
    simp
  rw [List.perm_ext_iff_of_nodup (ids_nodup _) (List.nodup_cons.2 ⟨gone, ids_nodup _⟩)]
  intro p
  rw [List.mem_cons, mem_ids, mem_ids, isLive, isLive, get?_release]
  by_cases same : p = o <;> simp [same, found]

theorem Valid.alloc (valid : h.Valid) (stored : h.alloc? x = some (o, h')) : h'.Valid := by
  have ids := ids_alloc valid stored
  obtain ⟨changed, live, before⟩ := valid.alloc_cases stored
  have other : ∀ i ∈ h'.free, i ≠ o.slot := by
    intro i free same
    obtain ⟨list, -, -⟩ | ⟨-, none, -⟩ := before
    · have nodup := valid.free_nodup
      rw [list, ← same] at nodup
      exact (List.nodup_cons.1 nodup).1 free
    · simp [none] at free
  have sub : ∀ i ∈ h'.free, i ∈ h.free := by
    intro i free
    obtain ⟨list, -, -⟩ | ⟨-, none, -⟩ := before
    · exact list ▸ List.mem_cons_of_mem _ free
    · simp [none] at free
  refine ⟨?_, ?_, ?_, ?_, ?_⟩
  · have := valid.slots_le
    obtain ⟨-, -, size⟩ | ⟨-, -, -, -, size, room⟩ := before <;> omega
  · obtain ⟨list, -, -⟩ | ⟨-, none, -⟩ := before
    · exact (List.nodup_cons.1 (list ▸ valid.free_nodup)).2
    · simp [none]
  · intro i free
    rw [changed.elsewhere (other i free)]
    exact valid.free_empty i (sub i free)
  · intro i g slot unlisted
    by_cases same : i = o.slot
    · rw [same, changed.at_slot] at slot
      cases slot
    · rw [changed.elsewhere same] at slot
      refine valid.retired i g slot fun free => unlisted ?_
      obtain ⟨list, -, -⟩ | ⟨none, -⟩ := before
      · exact List.mem_of_ne_of_mem same (list ▸ free)
      · simp [none] at free
  · rw [live, valid.live_eq, ids.length_eq, List.length_cons]

theorem Valid.modify (valid : h.Valid) (o : ObjectId) (f : Object → Object) :
    (h.modify o f).Valid := by
  cases found : h.get? o with
  | none =>
    rw [modify_of_dead found]
    exact valid
  | some x =>
    have changed := rewrites_modify found f
    have occupied := valid.occupied_not_free found
    refine ⟨?_, ?_, ?_, ?_, ?_⟩
    · rw [size_modify]
      exact valid.slots_le
    · rw [free_modify]
      exact valid.free_nodup
    · intro i free
      rw [free_modify] at free
      rw [changed.elsewhere fun same => occupied (same ▸ free)]
      exact valid.free_empty i free
    · intro i g slot unlisted
      by_cases same : i = o.slot
      · rw [same, changed.at_slot] at slot
        cases slot
      · rw [changed.elsewhere same] at slot
        exact valid.retired i g slot (free_modify h o f ▸ unlisted)
    · rw [live_modify, valid.live_eq, (ids_modify h o f).length_eq]

theorem free_release (found : h.get? o = some x) :
    (h.release o).2.free = if o.generation.next?.isSome then o.slot :: h.free else h.free := by
  unfold release
  rw [found]
  cases o.generation.next? <;> rfl

theorem size_release (h : Heap) (o : ObjectId) : (h.release o).2.slots.size = h.slots.size := by
  unfold release
  cases h.get? o with
  | none => rfl
  | some x => cases o.generation.next? <;> simp [Array.set!_eq_setIfInBounds]

theorem live_release (found : h.get? o = some x) : (h.release o).2.live = h.live - 1 := by
  unfold release
  rw [found]
  cases o.generation.next? <;> rfl

theorem Valid.release (valid : h.Valid) (o : ObjectId) : (h.release o).2.Valid := by
  cases found : h.get? o with
  | none =>
    rw [release_of_dead found]
    exact valid
  | some x =>
    have changed := rewrites_release found
    have occupied := valid.occupied_not_free found
    have free := free_release found
    refine ⟨?_, ?_, ?_, ?_, ?_⟩
    · rw [size_release]
      exact valid.slots_le
    · rw [free]
      split
      · exact List.nodup_cons.2 ⟨occupied, valid.free_nodup⟩
      · exact valid.free_nodup
    · intro i listed
      by_cases same : i = o.slot
      · exact ⟨_, same ▸ changed.at_slot⟩
      · rw [changed.elsewhere same]
        refine valid.free_empty i ?_
        rw [free] at listed
        split at listed
        · exact List.mem_of_ne_of_mem same listed
        · exact listed
    · intro i g slot unlisted
      rw [free] at unlisted
      by_cases same : i = o.slot
      · rw [same, changed.at_slot] at slot
        cases next : o.generation.next? with
        | some g' => simp [next, same] at unlisted
        | none =>
          rw [next] at slot
          cases slot
          exact next
      · rw [changed.elsewhere same] at slot
        refine valid.retired i g slot fun listed => unlisted ?_
        split
        · exact List.mem_cons_of_mem _ listed
        · exact listed
    · have ids := (ids_release found).length_eq
      rw [live_release found, valid.live_eq, ids, List.length_cons, Nat.add_sub_cancel]

/-! Handles that were handed out. -/

/-- The handle was returned by an allocation at some time. -/
def Issued (h : Heap) (o : ObjectId) : Prop :=
  ∃ s, h.slots[o.slot.val]? = some s ∧
    (o.generation < s.generation ∨ o.generation = s.generation ∧ o.slot ∉ h.free)

instance (h : Heap) (o : ObjectId) : Decidable (h.Issued o) :=
  match slot : h.slots[o.slot.val]? with
  | some s =>
    decidable_of_iff
      (o.generation < s.generation ∨ o.generation = s.generation ∧ o.slot ∉ h.free)
      (by simp [Issued, slot])
  | none => isFalse (by simp [Issued, slot])

theorem not_issued_empty (o : ObjectId) : ¬ Issued {} o := by
  rintro ⟨s, slot, -⟩
  simp at slot

theorem Valid.issued_of_live (valid : h.Valid) (found : h.get? o = some x) : h.Issued o :=
  ⟨_, get?_eq_some_iff.1 found, .inr ⟨rfl, valid.occupied_not_free found⟩⟩

theorem Valid.not_issued_alloc (valid : h.Valid) (stored : h.alloc? x = some (o, h')) :
    ¬ h.Issued o := by
  rintro ⟨s, slot, age⟩
  obtain ⟨-, -, ⟨list, empty, -⟩ | ⟨-, -, size, -⟩⟩ := valid.alloc_cases stored
  · rw [empty, Option.some.injEq] at slot
    subst slot
    obtain older | ⟨-, unlisted⟩ := age
    · exact Nat.lt_irrefl _ older
    · exact unlisted (by simp [list])
  · have := lt_size_of_slot slot
    omega

theorem Valid.issued_alloc (valid : h.Valid) (stored : h.alloc? x = some (o, h')) :
    h'.Issued p ↔ p = o ∨ h.Issued p := by
  obtain ⟨changed, -, before⟩ := valid.alloc_cases stored
  have unlisted : o.slot ∉ h'.free :=
    (valid.alloc stored).occupied_not_free (get?_eq_some_iff.2 changed.at_slot)
  unfold Issued
  by_cases slots : p.slot = o.slot
  · rw [slots, changed.at_slot, ObjectId.eq_iff_generation slots]
    obtain ⟨list, empty, -⟩ | ⟨-, -, size, first, -⟩ := before
    · simp [empty, list, unlisted, or_comm]
    · have blank : h.slots[o.slot.val]? = none := by simp [size]
      simp [blank, unlisted, first, Generation.not_lt_first]
  · have other : p ≠ o := fun same => slots (congrArg ObjectId.slot same)
    have listed : p.slot ∈ h'.free ↔ p.slot ∈ h.free := by
      obtain ⟨list, -, -⟩ | ⟨old, new, -⟩ := before
      · simp [list, slots]
      · simp [old, new]
    simp [changed.elsewhere slots, listed, other]

theorem issued_modify (h : Heap) (f : Object → Object) :
    (h.modify o f).Issued p ↔ h.Issued p := by
  cases found : h.get? o with
  | none => rw [modify_of_dead found]
  | some x =>
    have changed := rewrites_modify found f
    unfold Issued
    rw [free_modify]
    by_cases slots : p.slot = o.slot
    · simp [slots, changed.at_slot, get?_eq_some_iff.1 found]
    · simp [changed.elsewhere slots]

theorem Valid.issued_release (valid : h.Valid) (o : ObjectId) :
    (h.release o).2.Issued p ↔ h.Issued p := by
  cases found : h.get? o with
  | none => rw [release_of_dead found]
  | some x =>
    have slot := get?_eq_some_iff.1 found
    have changed := rewrites_release found
    have free := free_release found
    have occupied := valid.occupied_not_free found
    unfold Issued
    by_cases slots : p.slot = o.slot
    · rw [slots, changed.at_slot, slot, free]
      cases next : o.generation.next? with
      | none => simp [occupied]
      | some g =>
        simp [occupied, Generation.lt_next_iff next]
    · have listed : p.slot ∈ (h.release o).2.free ↔ p.slot ∈ h.free := by
        rw [free]
        split
        · simp [slots]
        · rfl
      simp [changed.elsewhere slots, listed]

end ProxyEngine.Heap
