import Mathlib.Data.List.Infix
import ProxyEngine.Atom

/-! The table of texts. Interning only appends, so what was found once is found
again under the same atom. As long as the table holds no more texts than there are
atoms, an atom gives back the text it was found for. -/

namespace ProxyEngine.AtomTable

variable {t t' : AtomTable} {a : Atom} {s s' : String}

theorem toNat_ofPosition {n : Nat} (small : n < 0x100000000) :
    (Atom.ofPosition n).index.toNat = n := by
  simp only [Atom.ofPosition, UInt32.toNat_ofNat']
  omega

theorem ofPosition_inj {m n : Nat} (small : m < 0x100000000) (small' : n < 0x100000000)
    (same : Atom.ofPosition m = .ofPosition n) : m = n := by
  rw [← toNat_ofPosition small, same, toNat_ofPosition small']

theorem ofPosition_toNat (a : Atom) : .ofPosition a.index.toNat = a := by
  rw [Atom.ofPosition, UInt32.ofNat_toNat]

theorem intern_cases (t : AtomTable) (s : String) :
    (t.intern s).2 = t ∨ s ∉ t.texts ∧ (t.intern s).2.texts = t.texts ++ [s] := by
  cases found : t.find? s with
  | some a => exact .inl (by rw [intern_of_find? found])
  | none =>
    refine .inr ⟨find?_eq_none_iff.1 found, ?_⟩
    rw [intern_of_find?_eq_none found]
    rfl

theorem get?_intern (t : AtomTable) (s : String) :
    ((t.intern s).2.get? (t.intern s).1).isSome := by
  have inside {n : Nat} {texts : List String} (lt : n < texts.length) :
      (texts[(Atom.ofPosition n).index.toNat]?).isSome := by
    simpa [Atom.ofPosition] using Nat.lt_of_le_of_lt (Nat.mod_le _ _) lt
  cases found : t.find? s with
  | some a =>
    rw [intern_of_find? found]
    rw [find?_eq] at found
    obtain ⟨i, place, rfl⟩ := Option.map_eq_some_iff.1 found
    exact inside (List.idxOf?_eq_some_iff.1 place).1
  | none =>
    rw [intern_of_find?_eq_none found]
    exact inside (by simp [size, push])

theorem get?_of_append {new : List String} (more : t'.texts = t.texts ++ new)
    (found : t.get? a = some s) : t'.get? a = some s := by
  unfold get? at *
  rw [more, List.getElem?_append_left (List.getElem?_eq_some_iff.1 found).1]
  exact found

theorem texts_prefix_intern (t : AtomTable) (s : String) :
    t.texts <+: (t.intern s).2.texts := by
  obtain same | ⟨-, more⟩ := t.intern_cases s
  · rw [same]
  · exact ⟨[s], more.symm⟩

theorem find?_of_prefix (more : t.texts <+: t'.texts) (found : t.find? s = some a) :
    t'.find? s = some a := by
  obtain ⟨new, more⟩ := more
  rw [find?_eq] at *
  obtain ⟨i, place, rfl⟩ := Option.map_eq_some_iff.1 found
  have kept : t'.texts.idxOf? s = some i := by
    rw [List.idxOf?] at *
    rw [← more, List.findIdx?_append, place, Option.some_or]
  rw [kept, Option.map_some]

theorem find?_push (new : t.find? s = none) (r : String) :
    (t.push s new).find? r = if r = s then some (.ofPosition t.size) else t.find? r := by
  rw [find?_eq, find?_eq, push, idxOf?_concat (find?_eq_none_iff.1 new)]
  split <;> rfl

theorem find?_intern (t : AtomTable) (s : String) :
    (t.intern s).2.find? s = some (t.intern s).1 := by
  cases found : t.find? s with
  | some a => rw [intern_of_find? found, found]
  | none => rw [intern_of_find?_eq_none found, find?_push, if_pos rfl]

theorem get?_of_find? (numbered : t.size ≤ 0x100000000) (found : t.find? s = some a) :
    t.get? a = some s := by
  rw [find?_eq] at found
  obtain ⟨i, place, rfl⟩ := Option.map_eq_some_iff.1 found
  obtain ⟨inside, text, -⟩ := List.idxOf?_eq_some_iff.1 place
  have small : i < 0x100000000 := Nat.lt_of_lt_of_le inside numbered
  rw [get?, toNat_ofPosition small, List.getElem?_eq_getElem inside, text]

theorem find?_inj (numbered : t.size ≤ 0x100000000) (found : t.find? s = some a)
    (found' : t.find? s' = some a) : s = s' := by
  have text := get?_of_find? numbered found
  rw [get?_of_find? numbered found'] at text
  exact (Option.some.inj text).symm

end ProxyEngine.AtomTable
