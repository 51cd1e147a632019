/-!
Handles of objects. A handle names a heap slot together with the slot's
generation, and its raw form packs both into 32 bits: the slot number plus one
in the low 20 bits, the generation in the high 12. No raw form with empty low
bits is a handle, so a raw zero can stand for "no object".
-/

namespace ProxyEngine

/-- The `2 ^ 20 - 1` slot numbers that 20 bits can hold next to the empty pattern. -/
abbrev SlotIndex := Fin 1048575

abbrev Generation := Fin 4096

def SlotIndex.first : SlotIndex := ⟨0, by decide⟩

namespace Generation

def first : Generation := ⟨0, by decide⟩

def next? (g : Generation) : Option Generation :=
  if more : g.val + 1 < 4096 then some ⟨g.val + 1, more⟩ else none

end Generation

structure ObjectId where
  slot : SlotIndex
  generation : Generation
  deriving DecidableEq

namespace ObjectId

def first (i : SlotIndex) : ObjectId :=
  ⟨i, .first⟩

instance : Inhabited ObjectId := ⟨first SlotIndex.first⟩

def raw (o : ObjectId) : Nat :=
  o.generation.val * 0x100000 + (o.slot.val + 1)

def ofRaw? (n : Nat) : Option ObjectId :=
  if slotted : n % 0x100000 ≠ 0 then
    some ⟨⟨n % 0x100000 - 1, by omega⟩, ⟨n / 0x100000 % 0x1000, by omega⟩⟩
  else none

theorem raw_lt (o : ObjectId) : o.raw < 0x100000000 := by
  have := o.slot.isLt
  have := o.generation.isLt
  unfold raw
  omega

theorem raw_pos (o : ObjectId) : 0 < o.raw := by
  unfold raw
  omega

theorem raw_mod (o : ObjectId) : o.raw % 0x100000 = o.slot.val + 1 := by
  have := o.slot.isLt
  unfold raw
  omega

theorem raw_div (o : ObjectId) : o.raw / 0x100000 % 0x1000 = o.generation.val := by
  have := o.slot.isLt
  have := o.generation.isLt
  unfold raw
  omega

@[simp] theorem ofRaw?_raw (o : ObjectId) : ofRaw? o.raw = some o := by
  have slotted : o.raw % 0x100000 ≠ 0 := by
    rw [raw_mod]
    omega
  rw [ofRaw?, dif_pos slotted]
  refine congrArg some ?_
  have slot : o.raw % 0x100000 - 1 = o.slot.val := by
    rw [raw_mod]
    omega
  exact congr (congrArg ObjectId.mk (Fin.ext slot)) (Fin.ext (raw_div o))

theorem raw_injective {a b : ObjectId} (h : a.raw = b.raw) : a = b := by
  have := congrArg ofRaw? h
  simpa using this

def debugText (o : ObjectId) : String :=
  "Object(#" ++ toString o.raw ++ ")"

end ObjectId

end ProxyEngine
