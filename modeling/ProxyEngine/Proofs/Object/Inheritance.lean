import ProxyEngine.Proofs.Object.Assignment
import ProxyEngine.Proofs.Object.KeyOrder

/-! Inheritance. Along ordinary prototypes the nearest object that has a key owns it, and
asking, reading and enumerating agree on who that is. An enumeration leaves in place what its
vector held; what it appends is new each time and never a symbol, whatever the proxies on its
way answer and wherever it fails. -/

namespace ProxyEngine

variable {σ : Type}

inductive Reading where
  | value (v : Value)
  | call (getter : ObjectId)
  deriving DecidableEq

def Property.reading : Property → Reading
  | data v _ => .value v
  | accessor (some g) _ _ => .call g
  | accessor none _ _ => .value .undefined

namespace Context

def owner? (c : Context) (os : List ObjectId) (k : PropertyKey) : Option ObjectId :=
  os.find? fun q => (c.ownProperty? q k).isSome

def reading (c : Context) (os : List ObjectId) (k : PropertyKey) : Reading :=
  ((c.owner? os k).bind fun q => c.ownProperty? q k).elim (.value .undefined) Property.reading

def inherited (c : Context) (os : List ObjectId) : List PropertyKey :=
  os.flatMap fun q => (c.ownEnumerableKeys q).filter fun k =>
    !k.isSymbol && c.owner? os k == some q

variable {c : Context} {o q : ObjectId} {os : List ObjectId} {k : PropertyKey}
  {seen : List PropertyKey}

theorem owner?_of_own (own : (c.ownProperty? o k).isSome) : c.owner? (o :: os) k = some o :=
  List.find?_cons_of_pos own

theorem owner?_of_missing (missing : c.ownProperty? o k = none) :
    c.owner? (o :: os) k = c.owner? os k :=
  List.find?_cons_of_neg (by simp [missing])

theorem owner?_property (c : Context) (os : List ObjectId) (k : PropertyKey) :
    ((c.owner? os k).bind fun q => c.ownProperty? q k) =
      os.findSome? fun q => c.ownProperty? q k := by
  induction os with
  | nil => rfl
  | cons o os ih =>
    rw [List.findSome?_cons]
    cases own : c.ownProperty? o k with
    | none => rw [owner?_of_missing own, ih]
    | some p => rw [owner?_of_own (by simp [own]), Option.bind_some, own]

theorem mem_ownEnumerableKeys :
    k ∈ c.ownEnumerableKeys q ↔ k ≠ .void ∧
      ∃ p, c.ownProperty? q k = some p ∧ p.attributes.enumerable = true := by
  rw [ownEnumerableKeys, List.mem_filter, mem_ownKeys, Option.any_eq_true]
  constructor
  · exact fun ⟨⟨_, visible⟩, shown⟩ => ⟨visible, shown⟩
  · exact fun ⟨visible, p, own, shown⟩ => ⟨⟨by simp [own], visible⟩, p, own, shown⟩

theorem mem_inherited :
    k ∈ c.inherited os ↔ (k.isIndex = true ∨ k.isAtom = true) ∧
      ∃ q p, c.owner? os k = some q ∧ c.ownProperty? q k = some p ∧
        p.attributes.enumerable = true := by
  have spelled : k ≠ .void ∧ k.isSymbol = false ↔ k.isIndex = true ∨ k.isAtom = true := by
    cases k <;> simp [PropertyKey.isSymbol, PropertyKey.isIndex, PropertyKey.isAtom]
  simp only [inherited, List.mem_flatMap, List.mem_filter, mem_ownEnumerableKeys,
    Bool.and_eq_true, Bool.not_eq_true', beq_iff_eq]
  constructor
  · rintro ⟨q, -, ⟨visible, p, own, shown⟩, string, owner⟩
    exact ⟨spelled.1 ⟨visible, string⟩, q, p, owner, own, shown⟩
  · rintro ⟨kind, q, p, owner, own, shown⟩
    obtain ⟨visible, string⟩ := spelled.2 kind
    exact ⟨q, List.mem_of_find?_eq_some owner, ⟨visible, p, own, shown⟩, string, owner⟩

theorem inherited_nodup (nodup : os.Nodup) : (c.inherited os).Nodup := by
  refine List.nodup_flatMap.2 ⟨fun q _ => ?_, nodup.imp fun {p q} apart k left right => ?_⟩
  · exact ((ownKeys_nodup c q).filter _).filter _
  · have here := (List.mem_filter.1 left).2
    have there := (List.mem_filter.1 right).2
    simp only [Bool.and_eq_true, beq_iff_eq] at here there
    exact apart (Option.some.inj (here.2.symm.trans there.2))

/-! The walk. -/

theorem freshKeys_fst (own : PropertyKey → Option Descriptor) {ks : List PropertyKey}
    (nodup : ks.Nodup) (seen : List PropertyKey) :
    (freshKeys own ks seen).1 = ks.filter fun k =>
      !(k.isSymbol || seen.contains k) && (own k).any Descriptor.isEnumerable := by
  induction ks generalizing seen with
  | nil => rfl
  | cons k ks ih =>
    obtain ⟨fresh, nodup⟩ := List.nodup_cons.1 nodup
    rw [freshKeys, List.filter_cons]
    cases (k.isSymbol || seen.contains k) with
    | true => exact ih nodup seen
    | false =>
      have rest : (freshKeys own ks (k :: seen)).1 = ks.filter fun k =>
          !(k.isSymbol || seen.contains k) && (own k).any Descriptor.isEnumerable := by
        refine (ih nodup (k :: seen)).trans (List.filter_congr fun j later => ?_)
        have other : (j == k) = false := beq_false_of_ne fun same => fresh (same ▸ later)
        rw [List.contains_cons, other, Bool.false_or]
      simp only [Bool.false_eq_true, if_false, rest, Bool.not_false, Bool.true_and]

theorem mem_freshKeys_snd {own : PropertyKey → Option Descriptor} {ks : List PropertyKey} :
    k ∈ (freshKeys own ks seen).2 ↔ k ∈ seen ∨ k ∈ ks ∧ k.isSymbol = false := by
  induction ks generalizing seen with
  | nil => simp [freshKeys]
  | cons j ks ih =>
    rw [freshKeys]
    cases symbol : j.isSymbol with
    | true =>
      simp only [Bool.true_or, if_true, ih, List.mem_cons]
      grind
    | false =>
      cases known : seen.contains j with
      | true =>
        have known : j ∈ seen := List.contains_iff_mem.1 known
        simp only [Bool.or_true, if_true, ih, List.mem_cons]
        grind
      | false =>
        simp only [Bool.or_false, Bool.false_eq_true, if_false, ih, List.mem_cons]
        grind

/-- A walk lists what the objects own and what it had not seen before. -/
theorem enumerated_eq (nodup : os.Nodup) (seen : List PropertyKey) :
    c.enumerated os seen = os.flatMap fun q => (c.ownEnumerableKeys q).filter fun k =>
      !(k.isSymbol || seen.contains k) && c.owner? os k == some q := by
  induction os generalizing seen with
  | nil => rfl
  | cons o os ih =>
    obtain ⟨apart, nodup⟩ := List.nodup_cons.1 nodup
    rw [enumerated_cons, List.flatMap_cons, freshKeys_fst _ (ownKeys_nodup c o), ih nodup]
    congr 1
    · rw [ownEnumerableKeys_eq, List.filter_filter]
      refine List.filter_congr fun k listed => ?_
      rw [owner?_of_own (mem_ownKeys.1 listed).1]
      simp
    · refine List.flatMap_congr fun q later => List.filter_congr fun k listed => ?_
      have visible := (mem_ownEnumerableKeys.1 listed).1
      have other : q ≠ o := fun same => apart (same ▸ later)
      rw [Bool.eq_iff_iff]
      simp only [Bool.and_eq_true, Bool.not_eq_true', Bool.or_eq_false_iff,
        List.contains_eq_mem, decide_eq_false_iff_not, mem_freshKeys_snd, mem_ownKeys, beq_iff_eq]
      cases own : c.ownProperty? o k with
      | none =>
        rw [owner?_of_missing own]
        simp
      | some p =>
        rw [owner?_of_own (by simp [own])]
        -- What `o` has was seen on it, enumerable or not, and no later object owns it.
        have foreign : some o ≠ some q := fun same => other (Option.some.inj same).symm
        constructor
        · rintro ⟨⟨string, unseen⟩, -⟩
          exact absurd (.inr ⟨⟨rfl, visible⟩, string⟩) unseen
        · exact fun ⟨_, same⟩ => absurd same foreign

theorem enumerated_start (nodup : os.Nodup) : c.enumerated os [] = c.inherited os := by
  rw [enumerated_eq nodup]
  simp [inherited]

end Context

/-! Ordinary chains. -/

namespace Reading

def Describes (F : Foreign σ) (receiver : Value) (m : Machine σ)
    (run : Nat → Except Stop (Fallible Value × Machine σ)) : Reading → Prop
  | value v => ∀ fuel, run fuel = .ok (.ok v, m)
  | call g => ∀ fuel, run fuel = Engine.issue F (fuel + 1) (.call g receiver []) m

end Reading

namespace Engine

open Context

/-- The objects `os` on the chain of `o` settle what is asked of `o`. -/
structure Resolves (F : Foreign σ) (o : ObjectId) (os : List ObjectId) (m : Machine σ) : Prop where
  has : ∀ k, ∃ b, (∀ fuel, os.length ≤ fuel → issue F fuel (.has o k) m = .ok (.ok b, m)) ∧
    (b = true ↔ ∃ q ∈ os, (m.context.ownProperty? q k).isSome)
  get : ∀ k receiver, ∃ n ≤ os.length, (m.context.reading os k).Describes F receiver m fun fuel =>
    issue F (fuel + n + 1) (.get o receiver k) m
  enumerate : ∀ fuel listed, os.length + 2 ≤ fuel → issue F fuel (.enumerate o listed) m =
    .ok (({ keys := listed ++ m.context.inherited os } : Listing), m)
  nodup : (m.context.inherited os).Nodup
  complete : ∀ k, k ∈ m.context.inherited os ↔ (k.isIndex = true ∨ k.isAtom = true) ∧
    ∃ q p, m.context.owner? os k = some q ∧ m.context.ownProperty? q k = some p ∧
      p.attributes.enumerable = true

variable {F : Foreign σ} {m m' : Machine σ} {o : ObjectId} {os : List ObjectId}
  {k : PropertyKey} {receiver : Value} {fuel : Nat}

theorem has_resolves (lineage : m.context.Lineage (some o) os) (k : PropertyKey) :
    ∃ b, (∀ fuel, os.length ≤ fuel → issue F fuel (.has o k) m = .ok (.ok b, m)) ∧
      (b = true ↔ ∃ q ∈ os, (m.context.ownProperty? q k).isSome) := by
  refine ⟨_, fun fuel enough => issue_has lineage k enough, ?_⟩
  rw [nearest?, List.isSome_findSome?, List.any_eq_true]
  simp [ownDescriptor?]

theorem readThrough_describes (p : Property) :
    p.reading.Describes F receiver m fun fuel =>
      (Ordinary.readThrough p.toDescriptor receiver).run.run (Engine.answer F (fuel + 1)) m := by
  rcases p with ⟨v, attrs⟩ | ⟨_ | g, s, attrs⟩
  · exact fun _ => rfl
  · exact fun _ => rfl
  · exact fun fuel => congrFun (run_perform (fuel + 1) (.call g receiver [])) m

theorem get_resolves (lineage : m.context.Lineage (some o) os) (k : PropertyKey)
    (receiver : Value) :
    ∃ n ≤ os.length, (m.context.reading os k).Describes F receiver m fun fuel =>
      issue F (fuel + n + 1) (.get o receiver k) m := by
  obtain ⟨n, short, climbs⟩ := issue_ascent (F := F) (.get receiver k) lineage.ascent
  have reads : (fun fuel => issue F (fuel + n + 1) (.get o receiver k) m) = fun fuel =>
      ((Lookup.get receiver k).after m.context os none).run (Engine.answer F (fuel + 1)) m :=
    funext climbs
  refine ⟨n, short, ?_⟩
  rw [reads, reading, owner?_property]
  unfold Lookup.after
  rw [Lookup.key, nearest?_eq]
  cases os.findSome? fun q => m.context.ownProperty? q k with
  | none => exact fun _ => rfl
  | some p => exact readThrough_describes p

theorem enumerate_resolves (lineage : m.context.Lineage (some o) os)
    (listed : List PropertyKey) (enough : os.length + 2 ≤ fuel) :
    issue F fuel (.enumerate o listed) m =
      .ok (({ keys := listed ++ m.context.inherited os } : Listing), m) := by
  obtain ⟨fuel, rfl⟩ : ∃ n, fuel = n + 1 := Nat.exists_eq_add_of_le' (by omega)
  obtain ⟨x, rest, -, found, other, -⟩ := lineage.start
  rw [issue_ordinary fuel rfl found other, ← enumerated_start lineage.nodup]
  have reached : os.length < fuel := by omega
  exact Run.bind_of_ok
    (answer_enumerateFrom lineage (fun _ _ => List.not_mem_nil) [] listed reached)

end Engine

/-! Any chains. -/

/-- The keys are new, each is there once, and none is a symbol. -/
structure Fresh (seen ks : List PropertyKey) : Prop where
  nodup : ks.Nodup
  unseen : ∀ k ∈ ks, k ∉ seen
  string : ∀ k ∈ ks, k.isSymbol = false

namespace Fresh

variable {ks ks' seen seen' : List PropertyKey} {k : PropertyKey}

theorem nil (seen : List PropertyKey) : Fresh seen [] := by
  refine ⟨?_, ?_, ?_⟩ <;> simp

theorem mono (fresh : Fresh seen' ks) (known : seen ⊆ seen') : Fresh seen ks where
  nodup := fresh.nodup
  unseen k here := mt (@known k) (fresh.unseen k here)
  string := fresh.string

theorem cons (fresh : Fresh (k :: seen) ks) (unseen : k ∉ seen) (string : k.isSymbol = false) :
    Fresh seen (k :: ks) where
  nodup := List.nodup_cons.2 ⟨fun again => fresh.unseen k again (.head _), fresh.nodup⟩
  unseen :=
    List.forall_mem_cons.2 ⟨unseen, fun j here known => fresh.unseen j here (.tail _ known)⟩
  string := List.forall_mem_cons.2 ⟨string, fresh.string⟩

theorem append (first : Fresh seen ks) (here : ks ⊆ seen') (known : seen ⊆ seen')
    (second : Fresh seen' ks') : Fresh seen (ks ++ ks') := by
  refine ⟨List.nodup_append.2 ⟨first.nodup, second.nodup, ?_⟩, ?_, ?_⟩
  · rintro j early _ late rfl
    exact second.unseen j late (here early)
  · exact List.forall_mem_append.2 ⟨first.unseen, (second.mono known).unseen⟩
  · exact List.forall_mem_append.2 ⟨first.string, second.string⟩

end Fresh

namespace Engine

variable {F : Foreign σ} {answer : Answerer σ} {m m' : Machine σ} {o : ObjectId} {fuel : Nat}
  {ks seen seen' listed : List PropertyKey} {l : Listing}

theorem visitKeys_fresh (ran : (Ordinary.visitKeys o ks seen listed).run answer m =
    .ok ((l, seen'), m')) :
    ∃ added, l.keys = listed ++ added ∧ Fresh seen added ∧ added ⊆ seen' ∧ seen ⊆ seen' := by
  induction ks generalizing seen listed m with
  | nil =>
    cases ran
    exact ⟨[], by simp, .nil _, List.nil_subset _, List.Subset.refl _⟩
  | cons k ks ih =>
    unfold Ordinary.visitKeys at ran
    split at ran
    next => exact ih ran
    next unvisited =>
      obtain ⟨string, unseen⟩ : k.isSymbol = false ∧ k ∉ seen := by simpa using unvisited
      rw [Program.run_bind] at ran
      obtain ⟨answered, m₁, -, ran⟩ := Run.bind_eq_ok.1 ran
      cases answered with
      | error e =>
        cases ran
        exact ⟨[], by simp, .nil _, List.nil_subset _, List.subset_cons_self _ _⟩
      | ok d =>
        obtain ⟨added, same, fresh, here, known⟩ := ih ran
        have later : seen ⊆ seen' := List.Subset.trans (List.subset_cons_self k seen) known
        cases shown : d.any Descriptor.isEnumerable with
        | true =>
          rw [if_pos shown, List.append_assoc] at same
          exact ⟨k :: added, same, fresh.cons unseen string,
            List.cons_subset.2 ⟨known (.head _), here⟩, later⟩
        | false =>
          rw [if_neg (by simp [shown])] at same
          exact ⟨added, same, fresh.mono (List.subset_cons_self k seen), here, later⟩

theorem enumerateFrom_fresh {visited : List ObjectId}
    (ran : Engine.answer F fuel (.enumerateFrom o visited seen listed) m = .ok (l, m')) :
    ∃ added, l.keys = listed ++ added ∧ Fresh seen added := by
  induction fuel generalizing o visited seen listed m with
  | zero => cases ran
  | succ fuel ih =>
    have kept : ∃ added, listed = listed ++ added ∧ Fresh seen added := ⟨[], by simp, .nil _⟩
    have ran : (Ordinary.enumerateFrom o visited seen listed).run (Engine.answer F fuel) m =
      .ok (l, m') := ran
    unfold Ordinary.enumerateFrom at ran
    split at ran
    next =>
      cases ran
      exact kept
    next =>
      rw [Program.run_bind] at ran
      obtain ⟨own, m₁, -, ran⟩ := Run.bind_eq_ok.1 ran
      split at ran
      next =>
        cases ran
        exact kept
      next =>
        rw [Program.run_bind] at ran
        obtain ⟨⟨here, seen₂⟩, m₂, visits, ran⟩ := Run.bind_eq_ok.1 ran
        obtain ⟨added, same, fresh, inside, known⟩ := visitKeys_fresh visits
        dsimp only at ran
        split at ran
        next =>
          cases ran
          exact ⟨added, same, fresh⟩
        next =>
          rw [Program.run_bind] at ran
          obtain ⟨up, m₃, -, ran⟩ := Run.bind_eq_ok.1 ran
          rcases up with _ | _ | p
          · cases ran
            exact ⟨added, same, fresh⟩
          · cases ran
            exact ⟨added, same, fresh⟩
          · have ran : (Program.ask (.enumerateFrom p (o :: visited) seen₂ here.keys) .done).run
              (Engine.answer F fuel) m₃ = .ok (l, m') := ran
            rw [Program.run_ask] at ran
            obtain ⟨more, further, later⟩ := ih ran
            rw [same, List.append_assoc] at further
            exact ⟨added ++ more, further, fresh.append inside known later⟩

/-- Lookups and enumeration agree on the nearest owner along ordinary prototypes; along any
others an enumeration still adds no key twice and no symbol. -/
theorem inheritance_resolves (F : Foreign σ) :
    (∀ (m : Machine σ) o os, m.context.Lineage (some o) os → Resolves F o os m) ∧
    ∀ fuel o listed (m : Machine σ) l m',
      run F fuel (Program.enumerateThroughPrototypes o listed) m = .ok (l, m') →
      ∃ added, l.keys = listed ++ added ∧ added.Nodup ∧ ∀ k ∈ added, k.isSymbol = false := by
  refine ⟨fun m o os lineage => ?_, fun fuel o listed m l m' ran => ?_⟩
  · exact {
      has := has_resolves lineage
      get := get_resolves lineage
      enumerate := fun _ => enumerate_resolves lineage
      nodup := Context.inherited_nodup lineage.nodup
      complete := fun _ => Context.mem_inherited }
  · obtain ⟨l', m₁, walked, ran⟩ := Run.bind_eq_ok.1 ran
    cases ran
    obtain ⟨added, same, fresh⟩ := enumerateFrom_fresh walked
    exact ⟨added, same, fresh.nodup, fresh.string⟩

def shadowing : Update (ObjectId × ObjectId) := do
  let p ← Update.newObject none
  discard <| Update.defineStored p (.index 0) (.ofData .null)
  discard <| Update.defineStored p (.index 1) (.ofData .null)
  let o ← Update.newObject (some p)
  discard <| Update.defineStored o (.index 0) (.ofData .null .hidden)
  return (o, p)

theorem shadowing_resolves : ∃ o p c, shadowing (Context.create {}) = some ((o, p), c) ∧
    c.Lineage (some o) [o, p] ∧
    c.owner? [o, p] (.index 0) = some o ∧ c.owner? [o, p] (.index 1) = some p ∧
    Resolves Foreign.idle o [o, p] ⟨c, ()⟩ ∧
    ∃ l m', run Foreign.idle 4 (Program.enumerateThroughPrototypes o [.index 7]) ⟨c, ()⟩ =
        .ok (l, m') ∧
      ∃ added, l.keys = [.index 7] ++ added ∧ added.Nodup ∧
        ∀ k ∈ added, k.isSymbol = false := by
  obtain ⟨⟨⟨o, p⟩, c⟩, ran⟩ : ∃ r, shadowing (Context.create {}) = some r := ⟨_, rfl⟩
  have lineage : c.Lineage (some o) [o, p] := by
    cases ran
    exact .next rfl rfl (.next rfl rfl .ends)
  have hidden : c.owner? [o, p] (.index 0) = some o := by
    cases ran
    rfl
  have shown : c.owner? [o, p] (.index 1) = some p := by
    cases ran
    rfl
  have resolved := inheritance_resolves (σ := Unit) Foreign.idle
  have walked : run Foreign.idle 4 (Program.enumerateThroughPrototypes o [.index 7]) ⟨c, ()⟩ =
      .ok ({ keys := [.index 7] ++ c.enumerated [o, p] [] }, ⟨c, ()⟩) :=
    Run.bind_of_ok (answer_enumerateFrom (m := ⟨c, ()⟩) lineage (fun _ _ => List.not_mem_nil) []
      [.index 7] (by simp))
  exact ⟨o, p, c, ran, lineage, hidden, shown, resolved.1 ⟨c, ()⟩ o [o, p] lineage, _, _, walked,
    resolved.2 _ _ _ _ _ _ walked⟩

end Engine

end ProxyEngine
