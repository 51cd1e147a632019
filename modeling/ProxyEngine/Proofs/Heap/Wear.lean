import Mathlib.Algebra.BigOperators.Group.Finset.Basic
import Mathlib.Algebra.Group.Action.Defs
import Mathlib.Algebra.Order.BigOperators.Group.Finset
import Mathlib.Data.List.Infix
import ProxyEngine.Proofs.Heap.Directory

/-! How far a heap grows. Every slot is occupied, waiting in the free list or retired,
and a new one is added only when no slot is waiting. Each release of an object wears
its slot by one generation, and the release of the last generation retires it, so all
slots that are not needed for live objects were paid for by 4096 releases each. -/

namespace ProxyEngine.Heap

variable {h h' : Heap} {i : SlotIndex} {o : ObjectId} {x : Object} {c : Command} {e : Event}

/-- An empty slot that is never used again. -/
def Retired (h : Heap) (i : SlotIndex) : Prop :=
  (∃ g, h.slots[i.val]? = some ⟨g, none⟩) ∧ i ∉ h.free

theorem retired_iff :
    (h.slots[i.val]?.any (fun s => s.object.isNone) && !h.free.contains i) = true ↔
      h.Retired i := by
  rw [Retired, Bool.and_eq_true]
  refine and_congr ?_ (by simp)
  cases h.slots[i.val]? with
  | none => simp
  | some s =>
    obtain ⟨g, object⟩ := s
    cases object <;> simp

instance (h : Heap) (i : SlotIndex) : Decidable (h.Retired i) :=
  decidable_of_iff _ retired_iff

/-- The times the slot was released, as its generation tells. -/
def wear (h : Heap) (i : SlotIndex) : Nat :=
  match h.slots[i.val]? with
  | none => 0
  | some s => s.generation.val + if h.Retired i then 1 else 0

def Event.freedSlot? : Event → Option SlotIndex
  | .freed o (some _) => some o.slot
  | _ => none

def freedSlots (es : List Event) : List SlotIndex :=
  es.filterMap Event.freedSlot?

/-- The most objects that live at once during a run. -/
def peak (h : Heap) : List Command → Nat
  | [] => h.ids.length
  | c :: cs =>
    match h.exec c with
    | some (_, h') => max h.ids.length (h'.peak cs)
    | none => h.ids.length

def slotIndices (h : Heap) : List SlotIndex :=
  (List.range h.slots.size).filterMap slotIndex?

def retiredSlots (h : Heap) : List SlotIndex :=
  h.slotIndices.filter fun i => h.Retired i

theorem mem_slotIndices : i ∈ h.slotIndices ↔ i.val < h.slots.size := by
  simp [slotIndices, slotIndex?_eq_some_iff]

theorem slotIndices_nodup (h : Heap) : h.slotIndices.Nodup := by
  refine List.Nodup.filterMap ?_ List.nodup_range
  intro m n i first second
  rw [Option.mem_def, slotIndex?_eq_some_iff] at first second
  rw [first, second]

theorem length_slotIndices (valid : h.Valid) : h.slotIndices.length = h.slotCount := by
  have few := valid.slots_le
  unfold maxSlots at few
  have all : ∀ n ∈ List.range h.slots.size, (slotIndex? n).isSome := by
    intro n inside
    have inside := List.mem_range.1 inside
    rw [slotIndex?, dif_pos (by omega)]
    rfl
  rw [slotIndices, List.length_filterMap_eq_countP, List.countP_eq_length.2 all, List.length_range,
    slotCount]

theorem mem_retiredSlots : i ∈ h.retiredSlots ↔ h.Retired i := by
  rw [retiredSlots, List.mem_filter, mem_slotIndices, decide_eq_true_eq, and_iff_right_iff_imp]
  rintro ⟨⟨g, slot⟩, -⟩
  exact lt_size_of_slot slot

theorem retiredSlots_nodup (h : Heap) : h.retiredSlots.Nodup :=
  h.slotIndices_nodup.filter _

theorem mem_occupied : i ∈ h.ids.map ObjectId.slot ↔ ∃ g x, h.slots[i.val]? = some ⟨g, some x⟩ := by
  simp only [List.mem_map, mem_ids, isLive, Option.isSome_iff_exists, get?_eq_some_iff]
  constructor
  · rintro ⟨o, ⟨x, slot⟩, rfl⟩
    exact ⟨o.generation, x, slot⟩
  · rintro ⟨g, x, slot⟩
    exact ⟨⟨i, g⟩, ⟨x, slot⟩, rfl⟩

theorem occupied_nodup (h : Heap) : (h.ids.map ObjectId.slot).Nodup :=
  List.pairwise_map.2 (h.ids_sorted.imp Fin.ne_of_lt)

theorem slot_cases (inside : i.val < h.slots.size) :
    i ∈ h.ids.map ObjectId.slot ∨ i ∈ h.free ∨ h.Retired i := by
  obtain ⟨⟨g, object⟩, slot⟩ : ∃ s, h.slots[i.val]? = some s :=
    ⟨_, Array.getElem?_eq_getElem inside⟩
  cases object with
  | some x => exact .inl (mem_occupied.2 ⟨g, x, slot⟩)
  | none =>
    by_cases free : i ∈ h.free
    · exact .inr (.inl free)
    · exact .inr (.inr ⟨⟨g, slot⟩, free⟩)

theorem slotCount_eq (valid : h.Valid) :
    h.slotCount = h.ids.length + h.free.length + h.retiredSlots.length := by
  have empty : h.free.Disjoint h.retiredSlots := by
    intro i free retired
    exact (mem_retiredSlots.1 retired).2 free
  have occupied : (h.ids.map ObjectId.slot).Disjoint (h.free ++ h.retiredSlots) := by
    intro i full other
    obtain ⟨g, x, slot⟩ := mem_occupied.1 full
    rw [List.mem_append, mem_retiredSlots] at other
    obtain free | ⟨⟨_, slot'⟩, -⟩ := other
    · obtain ⟨_, slot'⟩ := valid.free_empty i free
      simp [slot] at slot'
    · simp [slot] at slot'
  have nodup : (h.ids.map ObjectId.slot ++ (h.free ++ h.retiredSlots)).Nodup :=
    h.occupied_nodup.append (valid.free_nodup.append h.retiredSlots_nodup empty) occupied
  have perm : h.slotIndices.Perm (h.ids.map ObjectId.slot ++ (h.free ++ h.retiredSlots)) := by
    rw [List.perm_ext_iff_of_nodup h.slotIndices_nodup nodup]
    intro i
    rw [List.mem_append, List.mem_append, mem_retiredSlots, mem_slotIndices]
    refine ⟨slot_cases, ?_⟩
    rintro (full | free | ⟨⟨_, slot⟩, -⟩)
    · obtain ⟨_, _, slot⟩ := mem_occupied.1 full
      exact lt_size_of_slot slot
    · obtain ⟨_, slot⟩ := valid.free_empty i free
      exact lt_size_of_slot slot
    · exact lt_size_of_slot slot
  rw [← length_slotIndices valid, perm.length_eq, List.length_append, List.length_append,
    List.length_map, Nat.add_assoc]

/-! Wear of slots. -/

theorem not_retired_of_occupied {g : Generation} (slot : h.slots[i.val]? = some ⟨g, some x⟩) :
    ¬ h.Retired i := by
  rintro ⟨⟨_, empty⟩, -⟩
  simp [slot] at empty

theorem wear_eq_of_occupied {g : Generation} (slot : h.slots[i.val]? = some ⟨g, some x⟩) :
    h.wear i = g.val := by
  rw [wear, slot]
  simp [not_retired_of_occupied slot]

theorem wear_eq_of_free {g : Generation} (slot : h.slots[i.val]? = some ⟨g, none⟩)
    (free : i ∈ h.free) : h.wear i = g.val := by
  rw [wear, slot]
  simp [Retired, free]

theorem wear_eq_of_blank (blank : h.slots[i.val]? = none) : h.wear i = 0 := by
  rw [wear, blank]

theorem wear_eq_of_retired {g : Generation} (slot : h.slots[i.val]? = some ⟨g, none⟩)
    (unlisted : i ∉ h.free) : h.wear i = g.val + 1 := by
  have retired : h.Retired i := ⟨⟨g, slot⟩, unlisted⟩
  rw [wear, slot]
  simp [retired]

theorem Valid.retired_iff_wear (valid : h.Valid) : h.Retired i ↔ h.wear i = 4096 := by
  constructor
  · rintro ⟨⟨g, slot⟩, unlisted⟩
    have last := valid.retired i g slot unlisted
    have bound := g.isLt
    rw [wear_eq_of_retired slot unlisted]
    unfold Generation.next? at last
    split at last
    · contradiction
    · omega
  · intro worn
    unfold wear at worn
    split at worn
    · contradiction
    next s _ =>
      have bound := s.generation.isLt
      split at worn
      next retired => exact retired
      next => omega

theorem wear_le (h : Heap) (i : SlotIndex) : h.wear i ≤ 4096 := by
  unfold wear
  split
  · omega
  next s _ =>
    have bound := s.generation.isLt
    split <;> omega

theorem wear_elsewhere {s : HeapSlot} {j : SlotIndex} (changed : h.Rewrites j s h')
    (listed : i ∈ h'.free ↔ i ∈ h.free) (other : i ≠ j) : h'.wear i = h.wear i := by
  have retired : h'.Retired i ↔ h.Retired i := by
    rw [Retired, Retired, changed.elsewhere other, listed]
  unfold wear
  rw [changed.elsewhere other]
  cases h.slots[i.val]? with
  | none => rfl
  | some s => simp only [retired]

theorem wear_alloc (valid : h.Valid) (stored : h.alloc? x = some (o, h')) :
    h'.wear i = h.wear i := by
  obtain ⟨changed, -, before⟩ := valid.alloc_cases stored
  by_cases same : i = o.slot
  · rw [same, wear_eq_of_occupied changed.at_slot]
    obtain ⟨list, slot, -⟩ | ⟨-, -, size, first, -⟩ := before
    · rw [wear_eq_of_free slot (by simp [list])]
    · rw [wear_eq_of_blank (by simp [size]), first]
      rfl
  · refine wear_elsewhere changed ?_ same
    obtain ⟨list, -⟩ | ⟨old, new, -⟩ := before
    · simp [list, same]
    · simp [old, new]

theorem wear_modify (h : Heap) (o : ObjectId) (f : Object → Object) :
    (h.modify o f).wear i = h.wear i := by
  cases found : h.get? o with
  | none => rw [modify_of_dead found]
  | some x =>
    have changed := rewrites_modify found f
    by_cases same : i = o.slot
    · rw [same, wear_eq_of_occupied changed.at_slot,
        wear_eq_of_occupied (get?_eq_some_iff.1 found)]
    · exact wear_elsewhere changed (by rw [free_modify]) same

theorem Valid.wear_release (valid : h.Valid) (found : h.get? o = some x) :
    (h.release o).2.wear i = h.wear i + if o.slot = i then 1 else 0 := by
  have changed := rewrites_release found
  have free := free_release found
  by_cases same : i = o.slot
  · rw [same, wear_eq_of_occupied (get?_eq_some_iff.1 found), if_pos rfl]
    have slot := changed.at_slot
    cases next : o.generation.next? with
    | some g =>
      rw [next] at slot free
      rw [wear_eq_of_free slot (by simp [free]), ← Generation.next?_eq_some_iff.1 next]
      rfl
    | none =>
      rw [next] at slot free
      have unlisted : o.slot ∉ (h.release o).2.free := by
        rw [free]
        exact valid.occupied_not_free found
      rw [wear_eq_of_retired slot unlisted]
      rfl
  · rw [if_neg (Ne.symm same), Nat.add_zero]
    refine wear_elsewhere changed ?_ same
    rw [free]
    split
    · simp [same]
    · rfl

theorem Valid.wear_exec (valid : h.Valid) (answered : h.exec c = some (e, h')) (i : SlotIndex) :
    h'.wear i = h.wear i + if e.freedSlot? = some i then 1 else 0 := by
  cases answers_of_exec answered with
  | alloc stored => exact wear_alloc valid stored
  | free o =>
    cases found : h.get? o with
    | none => simp [release_of_dead found, Event.freedSlot?]
    | some x =>
      rw [valid.wear_release found]
      simp [Event.freedSlot?]
  | get o => rfl
  | update o f => exact wear_modify h o f

/-! Runs. -/

theorem Valid.exec (valid : h.Valid) (answered : h.exec c = some (e, h')) : h'.Valid := by
  cases answers_of_exec answered with
  | alloc stored => exact valid.alloc stored
  | free o => exact valid.release o
  | get o => exact valid
  | update o f => exact valid.modify o f

section Runs

variable {cs : List Command} {es : List Event}

theorem Valid.run (valid : h.Valid) (ran : h.run cs = some (es, h')) : h'.Valid := by
  induction cs generalizing h es with
  | nil =>
    cases ran
    exact valid
  | cons c cs ih =>
    obtain ⟨e, h₁, later, answered, rest, rfl⟩ := run_cons_eq_some_iff.1 ran
    exact ih (valid.exec answered) rest

theorem Valid.wear_run (valid : h.Valid) (ran : h.run cs = some (es, h')) (i : SlotIndex) :
    h'.wear i = h.wear i + (freedSlots es).count i := by
  induction cs generalizing h es with
  | nil =>
    cases ran
    rfl
  | cons c cs ih =>
    obtain ⟨e, h₁, later, answered, rest, rfl⟩ := run_cons_eq_some_iff.1 ran
    rw [ih (valid.exec answered) rest, valid.wear_exec answered, freedSlots, freedSlots,
      List.filterMap_cons]
    cases e.freedSlot? with
    | none => simp
    | some j =>
      rw [List.count_cons]
      simp only [Option.some.injEq, beq_iff_eq]
      omega

theorem wear_empty (i : SlotIndex) : wear {} i = 0 :=
  rfl

theorem Valid.exec_grows (valid : h.Valid) (answered : h.exec c = some (e, h'))
    (grown : h'.slotCount ≠ h.slotCount) :
    h'.slotCount = h.slotCount + 1 ∧ h.free = [] ∧ h'.free = [] ∧ ∃ x o, e = .allocated x o := by
  cases answers_of_exec answered with
  | alloc stored =>
    obtain ⟨-, -, ⟨-, -, size⟩ | ⟨old, new, -, -, size, -⟩⟩ := valid.alloc_cases stored
    · exact absurd size grown
    · exact ⟨size, old, new, _, _, rfl⟩
  | free o => exact absurd (size_release h o) grown
  | get o => exact absurd rfl grown
  | update o f => exact absurd (size_modify h o f) grown

theorem Valid.retired_exec (valid : h.Valid) (answered : h.exec c = some (e, h'))
    (retired : h.Retired i) : h'.Retired i := by
  have bound := h'.wear_le i
  have step := valid.wear_exec answered i
  rw [valid.retired_iff_wear] at retired
  rw [(valid.exec answered).retired_iff_wear]
  omega

theorem Valid.length_retired_exec (valid : h.Valid) (answered : h.exec c = some (e, h')) :
    h.retiredSlots.length ≤ h'.retiredSlots.length := by
  have kept : h.retiredSlots ⊆ h'.retiredSlots := by
    intro i retired
    rw [mem_retiredSlots] at *
    exact valid.retired_exec answered retired
  exact (List.subperm_of_subset h.retiredSlots_nodup kept).length_le

/-- When a heap has just grown, its slots are the live and the retired ones, and from then
on only retired ones can be added to what was once needed. -/
theorem Valid.slotCount_exec (valid : h.Valid) (answered : h.exec c = some (e, h')) {most : Nat}
    (within : h.slotCount ≤ most + h.retiredSlots.length) :
    h'.slotCount ≤ max most h'.ids.length + h'.retiredSlots.length := by
  by_cases grown : h'.slotCount = h.slotCount
  · have more := valid.length_retired_exec answered
    omega
  · obtain ⟨-, -, empty, -⟩ := valid.exec_grows answered grown
    have accounted := slotCount_eq (valid.exec answered)
    rw [empty, List.length_nil] at accounted
    omega

theorem ids_length_le_peak (h : Heap) (cs : List Command) : h.ids.length ≤ h.peak cs := by
  cases cs with
  | nil => exact le_rfl
  | cons c cs =>
    unfold peak
    split
    · exact le_max_left _ _
    · exact le_rfl

theorem Valid.slotCount_run (valid : h.Valid) (ran : h.run cs = some (es, h')) {most : Nat}
    (within : h.slotCount ≤ most + h.retiredSlots.length) :
    h'.slotCount ≤ max most (h.peak cs) + h'.retiredSlots.length := by
  induction cs generalizing h es most with
  | nil =>
    cases ran
    omega
  | cons c cs ih =>
    -- What was needed before the rest of the run counts towards its peak.
    obtain ⟨e, h₁, later, answered, rest, rfl⟩ := run_cons_eq_some_iff.1 ran
    have bounded := ih (valid.exec answered) rest (valid.slotCount_exec answered within)
    have first := h₁.ids_length_le_peak cs
    have whole : h.peak (c :: cs) = max h.ids.length (h₁.peak cs) := by
      rw [peak, answered]
    omega

theorem peak_attained (h : Heap) (cs : List Command) :
    ∃ before es h', before <+: cs ∧ h.run before = some (es, h') ∧ h'.ids.length = h.peak cs := by
  induction cs generalizing h with
  | nil => exact ⟨[], [], h, List.prefix_refl _, rfl, rfl⟩
  | cons c cs ih =>
    have now : ∃ before es h', before <+: c :: cs ∧ h.run before = some (es, h') ∧
        h'.ids.length = h.ids.length := ⟨[], [], h, List.nil_prefix, rfl, rfl⟩
    unfold peak
    split
    next e h₁ answered =>
      obtain first | second := max_choice h.ids.length (h₁.peak cs)
      · rw [first]
        exact now
      · rw [second]
        obtain ⟨before, es, h', part, ran, most⟩ := ih h₁
        refine ⟨c :: before, e :: es, h', ?_, ?_, most⟩
        · exact List.cons_prefix_cons.2 ⟨rfl, part⟩
        · exact run_cons_eq_some_iff.2 ⟨e, h₁, es, answered, ran, rfl⟩
    next => exact now

theorem le_peak {before : List Command} (part : before <+: cs)
    (ran : h.run before = some (es, h')) : h'.ids.length ≤ h.peak cs := by
  induction before generalizing h cs es with
  | nil =>
    cases ran
    exact ids_length_le_peak _ cs
  | cons c before ih =>
    obtain ⟨e, h₁, later, answered, rest, rfl⟩ := run_cons_eq_some_iff.1 ran
    obtain ⟨cs, rfl, inner⟩ := List.cons_prefix_iff.1 part
    rw [peak, answered]
    exact (ih inner rest).trans (le_max_right _ _)

theorem length_mul_le_of_count {slots freed : List SlotIndex} {k : Nat} (nodup : slots.Nodup)
    (often : ∀ i ∈ slots, k ≤ freed.count i) : slots.length * k ≤ freed.length :=
  calc slots.length * k = slots.toFinset.card • k := by
        rw [List.toFinset_card_of_nodup nodup, smul_eq_mul]
    _ ≤ ∑ i ∈ slots.toFinset, freed.count i :=
        Finset.card_nsmul_le_sum _ _ _ fun i listed => often i (List.mem_toFinset.1 listed)
    _ ≤ ∑ i ∈ freed.toFinset, freed.count i := by
        refine Finset.sum_le_sum_of_ne_zero fun i _ counted => ?_
        rw [List.mem_toFinset, ← List.count_pos_iff]
        omega
    _ = freed.length := List.sum_toFinset_count_eq_length freed

theorem retired_iff_count (ran : Heap.run {} cs = some (es, h)) :
    h.Retired i ↔ (freedSlots es).count i = 4096 := by
  rw [(valid_empty.run ran).retired_iff_wear, valid_empty.wear_run ran, wear_empty, Nat.zero_add]

/-- A heap that was empty at first never has more slots than objects once lived at the same
time, except for one for each 4096 releases. A slot is added only by an allocation, one at a
time, when every other slot is occupied or retired, and a slot is retired by the call that
releases an object of it for the 4096th time. -/
theorem slots_bounded (ran : Heap.run {} cs = some (es, h)) :
    h.slotCount ≤ peak {} cs + (freedSlots es).length / 4096 ∧
    IsGreatest {n | ∃ before es' h', before <+: cs ∧ Heap.run {} before = some (es', h') ∧
      h'.ids.length = n} (peak {} cs) ∧
    (∀ c e h', h.exec c = some (e, h') → h'.slotCount ≠ h.slotCount →
      h'.slotCount = h.slotCount + 1 ∧ (∃ x o, e = .allocated x o) ∧
        ∀ i : SlotIndex, i.val < h.slotCount → i ∈ h.ids.map ObjectId.slot ∨ h.Retired i) ∧
    (∀ c e h' i, h.exec c = some (e, h') → h'.Retired i → ¬ h.Retired i →
      e.freedSlot? = some i ∧ (freedSlots es).count i = 4095) ∧
    ∀ i, h.Retired i ↔ (freedSlots es).count i = 4096 := by
  have valid := valid_empty.run ran
  refine ⟨?_, ?_, ?_, ?_, fun i => retired_iff_count ran⟩
  · have nothing : slotCount {} ≤ 0 + (retiredSlots {}).length := Nat.zero_le _
    have bounded := valid_empty.slotCount_run ran nothing
    have paid : h.retiredSlots.length * 4096 ≤ (freedSlots es).length :=
      length_mul_le_of_count h.retiredSlots_nodup fun i retired =>
        ((retired_iff_count ran).1 (mem_retiredSlots.1 retired)).ge
    omega
  · refine ⟨peak_attained {} cs, ?_⟩
    rintro n ⟨before, es', h', part, ran', rfl⟩
    exact le_peak part ran'
  · intro c e h' answered grown
    obtain ⟨one, empty, -, allocated⟩ := valid.exec_grows answered grown
    refine ⟨one, allocated, fun i inside => ?_⟩
    have accounted := slot_cases inside
    simpa [empty] using accounted
  · intro c e h' i answered retired before
    have step := valid.wear_exec answered i
    have worn := valid_empty.wear_run ran i
    have bound := h.wear_le i
    rw [(valid.exec answered).retired_iff_wear] at retired
    rw [valid.retired_iff_wear] at before
    rw [wear_empty] at worn
    split at step
    next freed => exact ⟨freed, by omega⟩
    next => omega

theorem reuse_slots_bounded :
    ∃ es h, Heap.run {} reuse = some (es, h) ∧ freedSlots es = [.first] ∧ peak {} reuse = 1 ∧
      h.slotCount ≤ 1 :=
  ⟨_, _, rfl, rfl, rfl, (slots_bounded (show Heap.run {} reuse = some (_, _) from rfl)).1⟩

end Runs

end ProxyEngine.Heap
