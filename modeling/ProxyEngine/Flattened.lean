/-!
Optional values as two fields: content and a flag that there is none. An absent
value is written with default content, and the content next to a set flag is
never read, so flattening and reading back give the same option.
-/

namespace ProxyEngine

structure Flattened (α : Type) where
  value : α
  isNone : Bool
  deriving DecidableEq

namespace Flattened

variable {α : Type}

def absent [Inhabited α] : Flattened α :=
  ⟨default, true⟩

instance [Inhabited α] : Inhabited (Flattened α) := ⟨absent⟩

def present (a : α) : Flattened α :=
  ⟨a, false⟩

def toOption (m : Flattened α) : Option α :=
  if m.isNone then none else some m.value

def ofOption [Inhabited α] : Option α → Flattened α
  | some a => present a
  | none => absent

@[simp] theorem toOption_present (a : α) : (present a).toOption = some a := rfl

@[simp] theorem toOption_absent [Inhabited α] : (absent : Flattened α).toOption = none := rfl

@[simp] theorem toOption_ofOption [Inhabited α] (o : Option α) : (ofOption o).toOption = o := by
  cases o <;> rfl

end Flattened

end ProxyEngine
