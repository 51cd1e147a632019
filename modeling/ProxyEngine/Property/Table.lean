import ProxyEngine.Property

/-!
The own properties of one object, in order of creation. Each key occurs once:
replacing a property keeps its place, a new one goes to the end, and erasing
one keeps the order of the others.
-/

namespace ProxyEngine

def keysOf (entries : List (PropertyKey × Property)) : List PropertyKey :=
  entries.map Prod.fst

structure PropertyTable where
  entries : List (PropertyKey × Property)
  keys_nodup : (keysOf entries).Nodup

namespace PropertyTable

def empty : PropertyTable := ⟨[], List.nodup_nil⟩

instance : Inhabited PropertyTable := ⟨empty⟩

def keys (t : PropertyTable) : List PropertyKey :=
  keysOf t.entries

def get? (t : PropertyTable) (k : PropertyKey) : Option Property :=
  t.entries.lookup k

def contains (t : PropertyTable) (k : PropertyKey) : Bool :=
  (t.get? k).isSome

def replaceEntry (k : PropertyKey) (p : Property) (e : PropertyKey × Property) :
    PropertyKey × Property :=
  if e.1 = k then (k, p) else e

@[simp] theorem replaceEntry_fst (k : PropertyKey) (p : Property)
    (e : PropertyKey × Property) : (replaceEntry k p e).1 = e.1 := by
  unfold replaceEntry
  split <;> simp_all

theorem keysOf_replace (k : PropertyKey) (p : Property)
    (entries : List (PropertyKey × Property)) :
    keysOf (entries.map (replaceEntry k p)) = keysOf entries := by
  simp [keysOf, Function.comp_def]

theorem lookup_isSome_iff (k : PropertyKey) (entries : List (PropertyKey × Property)) :
    (entries.lookup k).isSome ↔ k ∈ keysOf entries := by
  simp [keysOf]

/-- Stores `p` under `k`, in the place `k` has or at the end. -/
def insert (t : PropertyTable) (k : PropertyKey) (p : Property) : PropertyTable :=
  if h : t.contains k then
    ⟨t.entries.map (replaceEntry k p), by rw [keysOf_replace]; exact t.keys_nodup⟩
  else
    ⟨t.entries ++ [(k, p)], by
      have fresh : k ∉ keysOf t.entries := fun m =>
        h ((lookup_isSome_iff k t.entries).2 m)
      have : keysOf (t.entries ++ [(k, p)]) = keysOf t.entries ++ [k] := by simp [keysOf]
      rw [this, List.nodup_append]
      exact ⟨t.keys_nodup, by simp, by
        intro a ha b hb
        simp only [List.mem_singleton] at hb
        exact fun e => fresh (hb ▸ e ▸ ha)⟩⟩

def erase (t : PropertyTable) (k : PropertyKey) : PropertyTable :=
  ⟨t.entries.filter (·.1 != k), by
    unfold keysOf
    exact t.keys_nodup.sublist (List.filter_sublist.map _)⟩

/-- Own keys as scripts list them: indices in ascending order, then strings, then
symbols, each of the last two groups in order of creation. -/
def orderedKeys (t : PropertyTable) : List PropertyKey :=
  ((t.keys.filterMap PropertyKey.asIndex?).mergeSort (· ≤ ·)).map .index
    ++ t.keys.filter PropertyKey.isAtom ++ t.keys.filter PropertyKey.isSymbol

@[simp] theorem get?_empty (k : PropertyKey) : empty.get? k = none := rfl

theorem contains_iff (t : PropertyTable) (k : PropertyKey) :
    t.contains k ↔ k ∈ t.keys :=
  lookup_isSome_iff k t.entries

theorem keys_insert_of_contains {t : PropertyTable} {k : PropertyKey}
    (h : t.contains k = true) (p : Property) : (t.insert k p).keys = t.keys := by
  simp [insert, h, keys, keysOf_replace]

theorem keys_insert_of_fresh {t : PropertyTable} {k : PropertyKey}
    (h : t.contains k = false) (p : Property) : (t.insert k p).keys = t.keys ++ [k] := by
  simp [insert, h, keys, keysOf]

@[simp] theorem keys_erase (t : PropertyTable) (k : PropertyKey) :
    (t.erase k).keys = t.keys.filter (· != k) := by
  simp [erase, keys, keysOf, List.filter_map, Function.comp_def]

theorem lookup_entry {κ ν : Type} [BEq κ] [LawfulBEq κ] [DecidableEq κ] (k k' : κ) (p : ν)
    (rest : List (κ × ν)) :
    ((k, p) :: rest).lookup k' = if k' = k then some p else rest.lookup k' := by
  rw [List.lookup_cons]
  by_cases same : k' = k
  · simp [same]
  · rw [if_neg same, beq_false_of_ne same]

theorem lookup_replace (k k' : PropertyKey) (p : Property)
    (entries : List (PropertyKey × Property)) :
    (entries.map (replaceEntry k p)).lookup k' =
      if k' = k then (entries.lookup k).map fun _ => p else entries.lookup k' := by
  induction entries with
  | nil => simp
  | cons e entries ih =>
    obtain ⟨j, q⟩ := e
    by_cases here : j = k
    · subst here
      simp only [List.map_cons, replaceEntry, if_true, lookup_entry, ih]
      by_cases same : k' = j <;> simp [same]
    · simp only [List.map_cons, replaceEntry, if_neg here, lookup_entry, ih]
      by_cases same : k' = k
      · simp [same, Ne.symm here]
      · simp [same]

theorem lookup_filter {κ ν : Type} [BEq κ] [LawfulBEq κ] [DecidableEq κ] (k k' : κ)
    (entries : List (κ × ν)) :
    (entries.filter (·.1 != k)).lookup k' = if k' = k then none else entries.lookup k' := by
  induction entries with
  | nil => simp
  | cons e entries ih =>
    obtain ⟨j, q⟩ := e
    rw [lookup_entry, List.filter_cons]
    by_cases here : j = k
    · subst here
      simp only [bne_self_eq_false, Bool.false_eq_true, if_false, ih]
      by_cases same : k' = j <;> simp [same]
    · rw [if_pos (bne_iff_ne.2 here), lookup_entry, ih]
      by_cases same : k' = k
      · simp [same, Ne.symm here]
      · simp [same]

theorem get?_insert (t : PropertyTable) (k k' : PropertyKey) (p : Property) :
    (t.insert k p).get? k' = if k' = k then some p else t.get? k' := by
  cases known : t.contains k with
  | true =>
    obtain ⟨q, found⟩ := Option.isSome_iff_exists.1 known
    have stored : (t.insert k p).entries = t.entries.map (replaceEntry k p) := by
      simp [insert, known]
    have found : t.entries.lookup k = some q := found
    unfold get?
    rw [stored, lookup_replace, found, Option.map_some]
  | false =>
    have stored : (t.insert k p).entries = t.entries ++ [(k, p)] := by
      simp [insert, known]
    have fresh : t.entries.lookup k = none := Option.isNone_iff_eq_none.1 (by
      simpa [contains, get?] using known)
    unfold get?
    rw [stored, List.lookup_append, lookup_entry]
    by_cases same : k' = k <;> simp [same, fresh]

theorem get?_erase (t : PropertyTable) (k k' : PropertyKey) :
    (t.erase k).get? k' = if k' = k then none else t.get? k' :=
  lookup_filter k k' t.entries

end PropertyTable

end ProxyEngine
