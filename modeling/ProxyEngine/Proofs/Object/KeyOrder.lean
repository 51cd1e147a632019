import Mathlib.Data.List.Chain
import Mathlib.Data.List.Nodup
import ProxyEngine.Context
import ProxyEngine.Proofs.Heap.Validity

/-! The order of keys. Own keys are kept in the order in which they were created and
listed with the indices in front, by number. What a listing shows of the order of creation
survives every change that takes keys away and adds new ones at the end, so it can be told
from how long each key has been there without a break. -/

namespace ProxyEngine

namespace PropertyKey

/-- Where two keys stand to each other in a listing: indices by number, then strings, then
symbols, and among these two as `older` tells. -/
inductive Precedes (older : PropertyKey → PropertyKey → Prop) : PropertyKey → PropertyKey → Prop
  | indices {i j : UInt32} : i < j → Precedes older (.index i) (.index j)
  | index_atom (i : UInt32) (a : Atom) : Precedes older (.index i) (.atom a)
  | index_symbol (i : UInt32) (s : SymbolId) : Precedes older (.index i) (.symbol s)
  | atoms {a b : Atom} : older (.atom a) (.atom b) → Precedes older (.atom a) (.atom b)
  | atom_symbol (a : Atom) (s : SymbolId) : Precedes older (.atom a) (.symbol s)
  | symbols {s t : SymbolId} : older (.symbol s) (.symbol t) →
      Precedes older (.symbol s) (.symbol t)

def Peers (j k : PropertyKey) : Prop :=
  j.isAtom ∧ k.isAtom ∨ j.isSymbol ∧ k.isSymbol

def arrange (ks : List PropertyKey) : List PropertyKey :=
  ((ks.filterMap asIndex?).mergeSort (· ≤ ·)).map .index ++ ks.filter isAtom ++ ks.filter isSymbol

/-- The keys of a later moment, in order of creation: some may be gone, and one that was not
there may have come. -/
inductive Moved (ks : List PropertyKey) : List PropertyKey → Prop
  | gone (p : PropertyKey → Bool) : Moved ks (ks.filter p)
  | come (p : PropertyKey → Bool) {k : PropertyKey} : k ∉ ks → Moved ks (ks.filter p ++ [k])

/-- For how many of the last moments the key has been there. The moments are told by their
keys, and the last one comes first. -/
def tenure (moments : List (List PropertyKey)) (k : PropertyKey) : Nat :=
  (moments.takeWhile (·.contains k)).length

variable {older older' : PropertyKey → PropertyKey → Prop} {j k : PropertyKey}
  {ks ks' : List PropertyKey} {moments : List (List PropertyKey)}

theorem Precedes.mono (precedes : Precedes older j k)
    (implies : Peers j k → older j k → older' j k) : Precedes older' j k := by
  cases precedes with
  | indices less => exact .indices less
  | index_atom | index_symbol | atom_symbol => constructor
  | atoms first => exact .atoms (implies (.inl ⟨rfl, rfl⟩) first)
  | symbols first => exact .symbols (implies (.inr ⟨rfl, rfl⟩) first)

theorem Precedes.of_peers (peers : Peers j k) (first : older j k) : Precedes older j k := by
  rcases peers with ⟨left, right⟩ | ⟨left, right⟩ <;> cases j <;> cases left <;> cases k <;>
    cases right
  · exact .atoms first
  · exact .symbols first

theorem Peers.ne_void (peers : Peers j k) : j ≠ .void ∧ k ≠ .void := by
  rcases peers with ⟨left, right⟩ | ⟨left, right⟩ <;> cases j <;> cases left <;> cases k <;>
    cases right <;> exact ⟨nofun, nofun⟩

theorem Precedes.asymm (asymm : ∀ {j k}, older j k → ¬ older k j) (precedes : Precedes older j k) :
    ¬ Precedes older k j := by
  rintro back
  cases precedes with
  | indices less =>
    cases back with
    | indices more => exact absurd less (UInt32.lt_asymm more)
  | index_atom | index_symbol | atom_symbol => cases back
  | atoms first =>
    cases back with
    | atoms second => exact asymm first second
  | symbols first =>
    cases back with
    | symbols second => exact asymm first second

/-! Two members of a list. -/

theorem pair_or_pair (left : j ∈ ks) (right : k ∈ ks) (distinct : j ≠ k) :
    [j, k].Sublist ks ∨ [k, j].Sublist ks := by
  induction ks with
  | nil => cases left
  | cons a ks ih =>
    rcases List.mem_cons.1 left with rfl | left'
    · have later := List.mem_of_ne_of_mem (Ne.symm distinct) right
      exact .inl ((List.singleton_sublist.2 later).cons_cons j)
    · rcases List.mem_cons.1 right with rfl | right'
      · exact .inr ((List.singleton_sublist.2 left').cons_cons k)
      · exact (ih left' right').imp (·.cons a) (·.cons a)

theorem not_pair_of_pair (nodup : ks.Nodup) (pair : [j, k].Sublist ks) :
    ¬ [k, j].Sublist ks := by
  induction ks with
  | nil => cases pair
  | cons a ks ih =>
    obtain ⟨fresh, nodup⟩ := List.nodup_cons.1 nodup
    intro back
    rcases List.cons_sublist_cons'.1 pair with within | ⟨rfl, later⟩
    · rcases List.cons_sublist_cons'.1 back with back' | ⟨rfl, -⟩
      · exact ih nodup within back'
      · exact fresh (within.subset (.tail _ (.head _)))
    · rcases List.cons_sublist_cons'.1 back with back' | ⟨rfl, -⟩
      · exact fresh (back'.subset (.tail _ (.head _)))
      · exact fresh (List.singleton_sublist.1 later)

theorem ne_of_pair (nodup : ks.Nodup) (pair : [j, k].Sublist ks) : j ≠ k := by
  rintro rfl
  exact not_pair_of_pair nodup pair pair

/-! Listings. -/

theorem mem_arrange : k ∈ arrange ks ↔ k ∈ ks ∧ k ≠ .void := by
  have index (i : UInt32) : (∃ j ∈ ks, j.asIndex? = some i) ↔ .index i ∈ ks := by
    refine ⟨fun ⟨j, here, same⟩ => ?_, fun here => ⟨_, here, rfl⟩⟩
    cases j <;> cases same
    exact here
  cases k <;> simp [arrange, isAtom, isSymbol, index]

theorem pairwise_arrange (nodup : ks.Nodup) :
    (arrange ks).Pairwise (Precedes fun j k => [j, k].Sublist ks) := by
  have indices : ((ks.filterMap asIndex?).mergeSort (· ≤ ·)).Pairwise (· < ·) := by
    have sorted : ((ks.filterMap asIndex?).mergeSort (· ≤ ·)).Pairwise
        fun i j => decide (i ≤ j) = true :=
      List.pairwise_mergeSort (fun _ _ _ => by simpa using UInt32.le_trans)
        (fun i j => by simpa using UInt32.le_total i j) _
    have distinct : (ks.filterMap asIndex?).Nodup :=
      nodup.filterMap fun j k i left right => by
        cases j <;> cases left
        cases k <;> cases right
        rfl
    refine (sorted.and ((List.mergeSort_perm _ _).nodup_iff.2 distinct)).imp ?_
    rintro i j ⟨le, ne⟩
    exact UInt32.lt_of_le_of_ne (by simpa using le) ne
  have group (p : PropertyKey → Bool) : (ks.filter p).Pairwise fun j k => [j, k].Sublist ks :=
    List.pairwise_iff_forall_sublist.2 fun pair => pair.trans List.filter_sublist
  refine List.pairwise_append.2 ⟨List.pairwise_append.2 ⟨?_, ?_, ?_⟩, ?_, ?_⟩
  · exact List.pairwise_map.2 (indices.imp fun less => .indices less)
  · refine (group isAtom).imp_of_mem fun left right pair => .of_peers (.inl ?_) pair
    exact ⟨(List.mem_filter.1 left).2, (List.mem_filter.1 right).2⟩
  · intro j left k right
    obtain ⟨i, -, rfl⟩ := List.mem_map.1 left
    cases k <;> cases (List.mem_filter.1 right).2
    constructor
  · refine (group isSymbol).imp_of_mem fun left right pair => .of_peers (.inr ?_) pair
    exact ⟨(List.mem_filter.1 left).2, (List.mem_filter.1 right).2⟩
  · intro j left k right
    cases k <;> cases (List.mem_filter.1 right).2
    rcases List.mem_append.1 left with index | atom
    · obtain ⟨i, -, rfl⟩ := List.mem_map.1 index
      constructor
    · cases j <;> cases (List.mem_filter.1 atom).2
      constructor

theorem nodup_arrange (nodup : ks.Nodup) : (arrange ks).Nodup :=
  (pairwise_arrange nodup).imp fun precedes same => by
    subst same
    exact precedes.asymm (not_pair_of_pair nodup) precedes

theorem pair_arrange (nodup : ks.Nodup) :
    [j, k].Sublist (arrange ks) ↔
      j ∈ arrange ks ∧ k ∈ arrange ks ∧ Precedes (fun j k => [j, k].Sublist ks) j k := by
  constructor
  · intro pair
    exact ⟨pair.subset (.head _), pair.subset (.tail _ (.head _)),
      List.pairwise_iff_forall_sublist.1 (pairwise_arrange nodup) pair⟩
  · rintro ⟨left, right, precedes⟩
    have asymm := precedes.asymm (not_pair_of_pair nodup)
    have distinct : j ≠ k := by
      rintro rfl
      exact asymm precedes
    refine (pair_or_pair left right distinct).resolve_right fun back => asymm ?_
    exact List.pairwise_iff_forall_sublist.1 (pairwise_arrange nodup) back

/-! Changes. -/

theorem Moved.refl (ks : List PropertyKey) : Moved ks ks := by
  have all : Moved ks (ks.filter fun _ => true) := .gone _
  simpa using all

theorem Moved.filter (moved : Moved ks ks') (q : PropertyKey → Bool) : Moved ks (ks'.filter q) := by
  cases moved with
  | gone p =>
    rw [List.filter_filter]
    exact .gone _
  | @come p new fresh =>
    rw [List.filter_append, List.filter_filter]
    cases stays : q new with
    | true => simpa [stays] using Moved.come (fun a => q a && p a) fresh
    | false =>
      have rest : Moved ks (ks.filter fun a => q a && p a) := .gone _
      simpa [stays] using rest

theorem Moved.kept (moved : Moved ks ks') (pair : [j, k].Sublist ks) (left : j ∈ ks')
    (right : k ∈ ks') : [j, k].Sublist ks' := by
  have filtered {p : PropertyKey → Bool} (left : p j = true) (right : p k = true) :
      [j, k].Sublist (ks.filter p) := by
    have both : [j, k].filter p = [j, k] := by simp [left, right]
    exact both ▸ pair.filter p
  cases moved with
  | gone p => exact filtered (List.mem_filter.1 left).2 (List.mem_filter.1 right).2
  | @come p new fresh =>
    have old {i : PropertyKey} (here : i ∈ ks) (later : i ∈ ks.filter p ++ [new]) :
        p i = true := by
      refine (List.mem_append.1 later).elim (fun kept => (List.mem_filter.1 kept).2) fun last => ?_
      exact absurd (List.mem_singleton.1 last ▸ here) fresh
    exact (filtered (old (pair.subset (.head _)) left)
      (old (pair.subset (.tail _ (.head _))) right)).trans (List.sublist_append_left _ _)

theorem Moved.late (moved : Moved ks ks') (fresh : k ∉ ks) (here : k ∈ ks') (other : j ∈ ks')
    (distinct : j ≠ k) : [j, k].Sublist ks' := by
  cases moved with
  | gone p => exact absurd (List.mem_filter.1 here).1 fresh
  | come p _ =>
    rcases List.mem_append.1 here with kept | new
    · exact absurd (List.mem_filter.1 kept).1 fresh
    · obtain rfl := List.mem_singleton.1 new
      have kept := (List.mem_append.1 other).resolve_right fun new =>
        distinct (List.mem_singleton.1 new)
      exact (List.singleton_sublist.2 kept).append (List.Sublist.refl [k])

structure Follows (ks ks' : List PropertyKey) : Prop where
  kept : ∀ j k, [j, k].Sublist ks → j ∈ ks' → k ∈ ks' → [j, k].Sublist ks'
  late : ∀ j k, k ∉ ks → k ∈ ks' → j ∈ ks' → j ≠ k → Peers j k → [j, k].Sublist ks'

theorem Moved.follows (moved : Moved ks ks') (before : ks.Nodup) (after : ks'.Nodup) :
    Follows (arrange ks) (arrange ks') where
  kept j k pair left right := by
    obtain ⟨-, -, precedes⟩ := (pair_arrange before).1 pair
    exact (pair_arrange after).2 ⟨left, right, precedes.mono fun _ pair =>
      moved.kept pair (mem_arrange.1 left).1 (mem_arrange.1 right).1⟩
  late j k fresh here other distinct peers := by
    have fresh : k ∉ ks := fun known => fresh (mem_arrange.2 ⟨known, (mem_arrange.1 here).2⟩)
    exact (pair_arrange after).2 ⟨other, here, .of_peers peers
      (moved.late fresh (mem_arrange.1 here).1 (mem_arrange.1 other).1 distinct)⟩

/-! Tenure. -/

/-- The first key has been there for more of the last moments, or both were there at all of
them and in this order at the beginning. -/
def Elder (moments : List (List PropertyKey)) (j k : PropertyKey) : Prop :=
  tenure moments k < tenure moments j ∨
    tenure moments j = moments.length ∧ tenure moments k = moments.length ∧
      ∃ first ∈ moments.getLast?, [j, k].Sublist first

theorem tenure_cons_of_mem (here : k ∈ ks) : tenure (ks :: moments) k = tenure moments k + 1 := by
  simp [tenure, here]

theorem tenure_of_fresh (fresh : k ∉ ks) : tenure (ks :: moments) k = 0 := by
  simp [tenure, fresh]

theorem elder_of_pair (chain : (ks :: moments).IsChain fun later earlier => Moved earlier later)
    (nodup : ∀ ks' ∈ ks :: moments, ks'.Nodup) (pair : [j, k].Sublist ks) :
    Elder (ks :: moments) j k := by
  induction moments generalizing ks j k with
  | nil =>
    have left : tenure [ks] j = 1 := tenure_cons_of_mem (pair.subset (.head _))
    have right : tenure [ks] k = 1 := tenure_cons_of_mem (pair.subset (.tail _ (.head _)))
    exact .inr ⟨left, right, ks, rfl, pair⟩
  | cons earlier moments ih =>
    obtain ⟨moved, chain⟩ := List.isChain_cons_cons.1 chain
    have left : j ∈ ks := pair.subset (.head _)
    have right : k ∈ ks := pair.subset (.tail _ (.head _))
    have now := nodup ks (.head _)
    have distinct := ne_of_pair now pair
    -- Were the first one new, it would be the last of all.
    have old : j ∈ earlier := by
      by_contra fresh
      exact not_pair_of_pair now pair (moved.late fresh left right distinct.symm)
    rw [Elder, tenure_cons_of_mem left, tenure_cons_of_mem right]
    by_cases known : k ∈ earlier
    · have pair' : [j, k].Sublist earlier :=
        (pair_or_pair old known distinct).resolve_right fun back =>
          not_pair_of_pair now pair (moved.kept back right left)
      rcases ih chain (fun _ here => nodup _ (.tail _ here)) pair' with less | ⟨full, full', first⟩
      · exact .inl (Nat.succ_lt_succ less)
      · exact .inr ⟨congrArg Nat.succ full, congrArg Nat.succ full', first⟩
    · rw [tenure_of_fresh known, tenure_cons_of_mem old]
      exact .inl (by omega)

end PropertyKey

/-! What is stored on an object. -/

namespace Context

open PropertyKey

def keyOrder (c : Context) (o : ObjectId) : List PropertyKey :=
  ((c.get? o).map fun x => x.properties.keys).getD []

variable {c c' : Context} {o : ObjectId} {k : PropertyKey} {x : Object}

theorem keyOrder_of_found (found : c.get? o = some x) : c.keyOrder o = x.properties.keys := by
  rw [keyOrder, found]
  rfl

theorem keyOrder_congr (same : c'.get? o = c.get? o) :
    c'.keyOrder o = c.keyOrder o := by
  rw [keyOrder, keyOrder, same]

theorem ownKeys_eq (c : Context) (o : ObjectId) : c.ownKeys o = arrange (c.keyOrder o) := by
  unfold ownKeys keyOrder
  cases c.get? o with
  | none => simp [arrange]
  | some x => rfl

theorem keyOrder_nodup (c : Context) (o : ObjectId) : (c.keyOrder o).Nodup := by
  unfold keyOrder
  cases c.get? o with
  | none => exact .nil
  | some x => exact x.properties.keys_nodup

theorem contains_keyOrder (c : Context) (o : ObjectId) (k : PropertyKey) :
    (c.keyOrder o).contains k = (c.ownProperty? o k).isSome := by
  unfold keyOrder ownProperty?
  cases c.get? o with
  | none => rfl
  | some x =>
    exact Bool.eq_iff_iff.2 (List.contains_iff_mem.trans (x.properties.contains_iff k).symm)

theorem keyOrder_modify {f : Object → Object} {g : List PropertyKey → List PropertyKey}
    (keys : ∀ x, (f x).properties.keys = g x.properties.keys) (empty : g [] = [])
    (c : Context) (o q : ObjectId) :
    keyOrder { c with heap := c.heap.modify o f } q =
      if q = o then g (c.keyOrder q) else c.keyOrder q := by
  rw [keyOrder, get?, Heap.get?_modify, keyOrder, get?]
  split
  next same =>
    subst same
    cases c.heap.get? q with
    | none => exact empty.symm
    | some x => exact keys x
  next => rfl

theorem mem_ownKeys : k ∈ c.ownKeys o ↔ (c.ownProperty? o k).isSome ∧ k ≠ .void := by
  rw [ownKeys_eq, mem_arrange, ← contains_keyOrder, List.contains_iff_mem]

theorem ownKeys_nodup (c : Context) (o : ObjectId) : (c.ownKeys o).Nodup :=
  ownKeys_eq c o ▸ nodup_arrange (keyOrder_nodup c o)

end Context

end ProxyEngine
