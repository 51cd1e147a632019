/-!
Interned strings and symbols. An atom is a position in its table; atoms are
numbered by first interning and are never freed. A table holds its texts in
that order and, apart from them, the atom that each text is looked up under;
every table carries the proof that the two agree.
-/

namespace ProxyEngine

structure Atom where
  index : UInt32
  deriving DecidableEq, Inhabited

structure SymbolId where
  index : UInt32
  deriving DecidableEq, Inhabited

def Atom.ofPosition (n : Nat) : Atom :=
  ⟨.ofNat n⟩

theorem idxOf?_concat {texts : List String} {s : String} (new : s ∉ texts) (r : String) :
    (texts ++ [s]).idxOf? r = if r = s then some texts.length else texts.idxOf? r := by
  simp only [List.idxOf?, List.findIdx?_append]
  by_cases same : r = s
  · subst same
    have absent : texts.findIdx? (· == r) = none := List.idxOf?_eq_none_iff.2 new
    simp [absent]
  · simp [same, Ne.symm same]

structure AtomTable where
  /-- Interned texts in order of first interning. -/
  texts : List String
  /-- The atom of each interned text. -/
  atoms : List (String × Atom)
  /-- A text is looked up under its position. -/
  lookup_atoms : ∀ s, atoms.lookup s = (texts.idxOf? s).map Atom.ofPosition
  deriving DecidableEq

namespace AtomTable

instance : EmptyCollection AtomTable where
  emptyCollection := { texts := [], atoms := [], lookup_atoms := fun _ => rfl }

instance : Inhabited AtomTable := ⟨{}⟩

def size (t : AtomTable) : Nat :=
  t.texts.length

def isEmpty (t : AtomTable) : Bool :=
  t.texts.isEmpty

def get? (t : AtomTable) (a : Atom) : Option String :=
  t.texts[a.index.toNat]?

def find? (t : AtomTable) (s : String) : Option Atom :=
  t.atoms.lookup s

theorem find?_eq (t : AtomTable) (s : String) :
    t.find? s = (t.texts.idxOf? s).map Atom.ofPosition :=
  t.lookup_atoms s

theorem find?_eq_none_iff {t : AtomTable} {s : String} : t.find? s = none ↔ s ∉ t.texts := by
  rw [find?_eq, Option.map_eq_none_iff, List.idxOf?_eq_none_iff]

/-- Appends a text that is not there, and the atom it is looked up under from now on. -/
def push (t : AtomTable) (s : String) (new : t.find? s = none) : AtomTable where
  texts := t.texts ++ [s]
  atoms := (s, .ofPosition t.size) :: t.atoms
  lookup_atoms r := by
    rw [List.lookup_cons, idxOf?_concat (find?_eq_none_iff.1 new)]
    by_cases same : r = s
    · simp [same, size]
    · rw [beq_false_of_ne same, if_neg same, ← t.lookup_atoms r]

def intern (t : AtomTable) (s : String) : Atom × AtomTable :=
  match found : t.find? s with
  | some a => (a, t)
  | none => (.ofPosition t.size, t.push s found)

@[simp] theorem get?_empty (a : Atom) : get? {} a = none := rfl

theorem intern_of_find? {t : AtomTable} {s : String} {a : Atom}
    (h : t.find? s = some a) : t.intern s = (a, t) := by
  unfold intern
  split <;> simp_all

theorem intern_of_find?_eq_none {t : AtomTable} {s : String} (h : t.find? s = none) :
    t.intern s = (.ofPosition t.size, t.push s h) := by
  unfold intern
  split <;> simp_all

end AtomTable

end ProxyEngine
