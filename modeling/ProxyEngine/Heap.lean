import ProxyEngine.Object

/-!
The object heap: a growing list of slots with generations. Freed slots are
reused, last freed first, under the next generation, so an old handle never
names a newer object; a slot freed at the last generation is retired. The heap
grows only when no freed slot is left.
-/

namespace ProxyEngine

structure HeapSlot where
  generation : Generation := .first
  object : Option Object := none
  deriving Inhabited

structure Heap where
  slots : Array HeapSlot := #[]
  /-- Reusable slots, the next one to be used first. -/
  free : List SlotIndex := []
  live : Nat := 0
  allocatedSinceGc : Nat := 0
  deriving Inhabited

namespace Heap

def maxSlots : Nat := 0xFFFFE

def slotCount (h : Heap) : Nat :=
  h.slots.size

/-- The object a handle names: its slot must still be of the handle's generation. -/
def get? (h : Heap) (o : ObjectId) : Option Object :=
  match h.slots[o.slot.val]? with
  | some s => if s.generation = o.generation then s.object else none
  | none => none

def isLive (h : Heap) (o : ObjectId) : Bool :=
  (h.get? o).isSome

def modify (h : Heap) (o : ObjectId) (f : Object → Object) : Heap :=
  match h.get? o with
  | some x => { h with slots := h.slots.set! o.slot.val ⟨o.generation, some (f x)⟩ }
  | none => h

def counted (h : Heap) : Heap :=
  { h with live := h.live + 1, allocatedSinceGc := h.allocatedSinceGc + 1 }

/-- Stores an object in the slot freed last, or in a new slot; `none` when the heap
can grow no further. -/
def alloc? (h : Heap) (x : Object) : Option (ObjectId × Heap) :=
  match h.free with
  | i :: rest =>
    let g := (h.slots[i.val]?.map HeapSlot.generation).getD .first
    some (⟨i, g⟩, { h with slots := h.slots.set! i.val ⟨g, some x⟩, free := rest }.counted)
  | [] =>
    if room : h.slots.size < maxSlots then
      let i : SlotIndex := ⟨h.slots.size, by unfold maxSlots at room; omega⟩
      some (.first i, { h with slots := h.slots.push ⟨.first, some x⟩ }.counted)
    else none

/-- Empties the slot of a live handle and makes it reusable under the next
generation, if there is one. Answers the object that was there. -/
def release (h : Heap) (o : ObjectId) : Option Object × Heap :=
  match h.get? o with
  | none => (none, h)
  | some x =>
    let h := { h with live := h.live - 1 }
    match o.generation.next? with
    | some g =>
      (some x, { h with
        slots := h.slots.set! o.slot.val ⟨g, none⟩
        free := o.slot :: h.free })
    | none => (some x, { h with slots := h.slots.set! o.slot.val ⟨o.generation, none⟩ })

def handle? (h : Heap) (i : SlotIndex) : Option ObjectId :=
  match h.slots[i.val]? with
  | some ⟨g, some _⟩ => some ⟨i, g⟩
  | _ => none

def slotIndex? (n : Nat) : Option SlotIndex :=
  if lt : n < 1048575 then some ⟨n, lt⟩ else none

def ids (h : Heap) : List ObjectId :=
  (List.range h.slots.size).filterMap fun n => (slotIndex? n).bind h.handle?

@[simp] theorem get?_empty (o : ObjectId) : get? {} o = none := rfl

theorem modify_of_dead {h : Heap} {o : ObjectId} (dead : h.get? o = none)
    (f : Object → Object) : h.modify o f = h := by
  simp [modify, dead]

theorem release_of_dead {h : Heap} {o : ObjectId} (dead : h.get? o = none) :
    h.release o = (none, h) := by
  simp [release, dead]

@[simp] theorem live_modify (h : Heap) (o : ObjectId) (f : Object → Object) :
    (h.modify o f).live = h.live := by
  unfold modify
  split <;> rfl

end Heap

end ProxyEngine
