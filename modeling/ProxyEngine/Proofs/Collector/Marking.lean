import Mathlib.Data.List.Perm.Subperm
import Mathlib.Data.List.TakeWhile
import ProxyEngine.Engine.Collector
import ProxyEngine.Proofs.Context.Ageing

/-! Marking computes reachability. What holds a handle, what is a root and what
is reachable are said without the work list; trace traps enter through the
visits they were paid and the edges they reported then. The marked set is shown
to be closed under all edges and to lie in every set that is. -/

namespace ProxyEngine

inductive Object.Holds (x : Object) (t : ObjectId) : Prop
  | prototype : x.prototype = some t → Holds x t
  | value {k : PropertyKey} {v : Value} {attrs : Attributes} :
      (k, .data v attrs) ∈ x.properties.entries → v.asObject? = some t → Holds x t
  | getter {k : PropertyKey} {setter : Option ObjectId} {attrs : Attributes} :
      (k, .accessor (some t) setter attrs) ∈ x.properties.entries → Holds x t
  | setter {k : PropertyKey} {getter : Option ObjectId} {attrs : Attributes} :
      (k, .accessor getter (some t) attrs) ∈ x.properties.entries → Holds x t
  | boxed {v : Value} : x.kind = .boxed v → v.asObject? = some t → Holds x t
  | privateValue {s : ProxyState} :
      x.kind = .proxy s → s.privateValue.asObject? = some t → Holds x t
  | reserved {s : ProxyState} {v : Value} :
      x.kind = .proxy s → v ∈ s.reserved → v.asObject? = some t → Holds x t

theorem Object.mem_propertyReferences {p : Property} {t : ObjectId} :
    t ∈ propertyReferences p ↔
      (∃ v attrs, p = .data v attrs ∧ v.asObject? = some t) ∨
      (∃ setter attrs, p = .accessor (some t) setter attrs) ∨
      ∃ getter attrs, p = .accessor getter (some t) attrs := by
  cases p <;> simp [propertyReferences]

theorem Object.mem_kindReferences {kind : ObjectKind} {t : ObjectId} :
    t ∈ kindReferences kind ↔
      (∃ v, kind = .boxed v ∧ v.asObject? = some t) ∨
      (∃ s, kind = .proxy s ∧ s.privateValue.asObject? = some t) ∨
      ∃ s v, kind = .proxy s ∧ v ∈ s.reserved ∧ v.asObject? = some t := by
  cases kind <;> simp [kindReferences]

theorem Object.mem_references {x : Object} {t : ObjectId} : t ∈ x.references ↔ x.Holds t := by
  simp only [references, List.mem_append, Option.mem_toList, List.mem_flatMap,
    mem_propertyReferences, mem_kindReferences]
  constructor
  · rintro ((proto | ⟨⟨k, p⟩, stored, ⟨v, attrs, rfl, object⟩ | ⟨setter, attrs, rfl⟩ |
      ⟨getter, attrs, rfl⟩⟩) | ⟨v, kind, object⟩ | ⟨s, kind, object⟩ | ⟨s, v, kind, slot, object⟩)
    · exact .prototype proto
    · exact .value stored object
    · exact .getter stored
    · exact .setter stored
    · exact .boxed kind object
    · exact .privateValue kind object
    · exact .reserved kind slot object
  · intro holds
    cases holds with
    | prototype proto => exact .inl (.inl proto)
    | value stored object => exact .inl (.inr ⟨_, stored, .inl ⟨_, _, rfl, object⟩⟩)
    | getter stored => exact .inl (.inr ⟨_, stored, .inr (.inl ⟨_, _, rfl⟩)⟩)
    | setter stored => exact .inl (.inr ⟨_, stored, .inr (.inr ⟨_, _, rfl⟩)⟩)
    | boxed kind object => exact .inr (.inl ⟨_, kind, object⟩)
    | privateValue kind object => exact .inr (.inr (.inl ⟨_, kind, object⟩))
    | reserved kind slot object => exact .inr (.inr (.inr ⟨_, _, kind, slot, object⟩))

namespace Context

inductive Rooted (c : Context) : ObjectId → Prop
  | objectPrototype : Rooted c objectPrototype
  | functionPrototype : Rooted c functionPrototype
  | global : Rooted c global
  | pending {v : Value} {o : ObjectId} :
      c.pending = some v → v.asObject? = some o → Rooted c o
  | root {o : ObjectId} {n : UInt32} : (o, n) ∈ c.roots → Rooted c o

theorem mem_markRoots {c : Context} {o : ObjectId} : o ∈ c.markRoots ↔ c.Rooted o := by
  simp only [markRoots, List.mem_reverse, List.mem_append, List.mem_cons, List.not_mem_nil,
    or_false, Option.mem_toList, Option.bind_eq_some_iff, List.mem_map, Prod.exists, exists_and_right,
    exists_eq_right]
  constructor
  · rintro (((rfl | rfl | rfl) | ⟨v, pending, object⟩) | ⟨n, registered⟩)
    · exact .objectPrototype
    · exact .functionPrototype
    · exact .global
    · exact .pending pending object
    · exact .root registered
  · intro rooted
    cases rooted with
    | objectPrototype => exact .inl (.inl (.inl rfl))
    | functionPrototype => exact .inl (.inl (.inr (.inl rfl)))
    | global => exact .inl (.inl (.inr (.inr rfl)))
    | pending pending object => exact .inl (.inr ⟨_, pending, object⟩)
    | root registered => exact .inr ⟨_, registered⟩

end Context

namespace Collector

variable {σ : Type} {F : Foreign σ} {c : Context}

/-- A proxy and the edges its trace trap reported. -/
structure Visit where
  proxy : ObjectId
  edges : List ObjectId

/-- Trace traps run one after the other, from one state of the embedder to another. -/
inductive Traced (F : Foreign σ) (c : Context) : σ → List Visit → σ → Prop
  | nil (s : σ) : Traced F c s [] s
  | cons {h : Handler} {v : Visit} {vs : List Visit} {s s₁ s₂ : σ} :
      c.handler? v.proxy = some h → F.edges h v.proxy s = (v.edges, s₁) →
      Traced F c s₁ vs s₂ → Traced F c s (v :: vs) s₂

inductive Leads (c : Context) (visits : List Visit) (o t : ObjectId) : Prop
  | held {x : Object} : c.get? o = some x → x.Holds t → Leads c visits o t
  | reported {v : Visit} : v ∈ visits → v.proxy = o → t ∈ v.edges → Leads c visits o t

/-- Live and reachable from a root through live objects. -/
inductive Reached (c : Context) (visits : List Visit) : ObjectId → Prop
  | root {o : ObjectId} : c.Rooted o → c.isLive o → Reached c visits o
  | step {o t : ObjectId} :
      Reached c visits o → Leads c visits o t → c.isLive t → Reached c visits t

theorem Reached.live {visits : List Visit} {o : ObjectId} (reached : Reached c visits o) :
    c.isLive o := by
  cases reached with
  | root rooted live => exact live
  | step before leads live => exact live

theorem Reached.of_stored {visits : List Visit} {o : ObjectId} (reached : Reached c [] o) :
    Reached c visits o := by
  induction reached with
  | root rooted live => exact .root rooted live
  | step _ leads live ih =>
    cases leads with
    | held found holds => exact .step ih (.held found holds) live
    | reported visited => cases visited

theorem leads_append {a b : List Visit} {o t : ObjectId} :
    Leads c (a ++ b) o t ↔ Leads c a o t ∨ Leads c b o t := by
  constructor
  · intro leads
    cases leads with
    | held found holds => exact .inl (.held found holds)
    | reported visited same edge =>
      exact (List.mem_append.1 visited).imp (.reported · same edge) (.reported · same edge)
  · rintro (leads | leads)
    · cases leads with
      | held found holds => exact .held found holds
      | reported visited same edge => exact .reported (List.mem_append_left b visited) same edge
    · cases leads with
      | held found holds => exact .held found holds
      | reported visited same edge => exact .reported (List.mem_append_right a visited) same edge

theorem Leads.of_unvisited {a b : List Visit} {o t : ObjectId} (leads : Leads c a o t)
    (unvisited : o ∉ a.map Visit.proxy) : Leads c b o t := by
  cases leads with
  | held found holds => exact .held found holds
  | reported visited same edge => exact absurd (List.mem_map.2 ⟨_, visited, same⟩) unvisited

theorem Traced.append {vs ws : List Visit} {s s₁ s₂ : σ} (first : Traced F c s vs s₁)
    (second : Traced F c s₁ ws s₂) : Traced F c s (vs ++ ws) s₂ := by
  induction first with
  | nil s => exact second
  | cons handler reports _ ih => exact .cons handler reports (ih second)

/-- Marking from a work list, with `old` marked before, marks `new` and pays the visits. -/
structure Marks (F : Foreign σ) (c : Context) (work old new : List ObjectId) (visits : List Visit)
    (s s' : σ) : Prop where
  traced : Traced F c s visits s'
  visited : visits.map Visit.proxy = new.reverse.filter c.isProxy
  nodup : (new ++ old).Nodup
  live : ∀ o ∈ new, c.isLive o
  /-- Nothing on the work list is forgotten. -/
  work_marked : ∀ o ∈ work, c.isLive o → o ∈ new ++ old
  /-- No edge is forgotten. -/
  closed : ∀ o t, o ∈ new → Leads c visits o t → c.isLive t → t ∈ new ++ old
  /-- Nothing is marked without a reason. -/
  least : ∀ P : ObjectId → Prop, (∀ o ∈ work, c.isLive o → P o) →
    (∀ o t, P o → Leads c visits o t → c.isLive t → P t) → ∀ o ∈ new, P o

theorem settled_iff {s : σ} {marked : List ObjectId} {o : ObjectId} :
    settled c.heap ⟨marked, s⟩ o = true ↔ (c.isLive o → o ∈ marked) := by
  simp only [settled, Context.isLive, Bool.or_eq_true, Bool.not_eq_true', List.contains_iff_mem]
  cases c.heap.isLive o <;> simp

theorem marks_nothing {work old : List ObjectId} (s : σ) (nodup : old.Nodup)
    (done : ∀ o ∈ work, c.isLive o → o ∈ old) : Marks F c work old [] [] s s where
  traced := .nil s
  visited := rfl
  nodup := nodup
  live := by simp
  work_marked := done
  closed := by simp
  least := by simp

theorem successors_leads {o : ObjectId} {x : Object} (found : c.get? o = some x) (s : σ) :
    ∃ paid, Traced F c s paid (successors F o x s).2 ∧
      paid.map Visit.proxy = [o].filter c.isProxy ∧
      ∀ t, t ∈ (successors F o x s).1 ↔ Leads c paid o t := by
  have held : ∀ t, t ∈ x.references ↔ Leads c [] o t := by
    intro t
    rw [Object.mem_references]
    constructor
    · exact .held found
    · intro leads
      cases leads with
      | held found' holds =>
        rw [found, Option.some.injEq] at found'
        exact found' ▸ holds
      | reported visited => cases visited
  have isProxy : c.isProxy o = x.proxy?.isSome := by
    simp [Context.isProxy, Context.proxy?, found]
  unfold successors
  cases kind : x.proxy? with
  | none =>
    refine ⟨[], .nil s, ?_, held⟩
    simp [isProxy, kind]
  | some p =>
    have handler : c.handler? o = some p.handler := by
      simp [Context.handler?, Context.proxy?, found, kind]
    refine ⟨[⟨o, (F.edges p.handler o s).1⟩], .cons handler rfl (.nil _), ?_, fun t => ?_⟩
    · simp [isProxy, kind]
    · rw [List.mem_append, held, ← List.nil_append [_], leads_append]
      constructor
      · rintro (leads | reported)
        · exact .inl leads
        · exact .inr (.reported (.head _) rfl reported)
      · rintro (leads | leads)
        · exact .inl leads
        · cases leads with
          | held found holds => exact .inl (.held found holds)
          | reported visited same edge =>
            obtain rfl := List.mem_singleton.1 visited
            exact .inr edge

theorem Marks.cons {o : ObjectId} {work next rest old new : List ObjectId}
    {paid visits : List Visit} {s s₁ s₂ : σ} (live : c.isLive o) (listed : o ∈ work)
    (sub : rest ⊆ work) (done : ∀ p ∈ work, c.isLive p → p ∈ old ∨ p = o ∨ p ∈ rest)
    (traced : Traced F c s paid s₁) (visited : paid.map Visit.proxy = [o].filter c.isProxy)
    (leads : ∀ t, t ∈ next ↔ Leads c paid o t)
    (later : Marks F c (next ++ rest) (o :: old) new visits s₁ s₂) :
    Marks F c work old (new ++ [o]) (paid ++ visits) s s₂ := by
  have same : (new ++ [o]) ++ old = new ++ o :: old := List.append_assoc new [o] old
  have unmarked : o ∉ new := fun marked =>
    (List.nodup_append.1 later.nodup).2.2 o marked o (.head _) rfl
  have unpaid : ∀ p ∈ new, p ∉ paid.map Visit.proxy := by
    intro p marked paid
    rw [visited] at paid
    obtain rfl := List.mem_singleton.1 (List.mem_of_mem_filter paid)
    exact unmarked marked
  have unvisited : o ∉ visits.map Visit.proxy := by
    intro again
    rw [later.visited] at again
    exact unmarked (List.mem_reverse.1 (List.mem_of_mem_filter again))
  refine ⟨traced.append later.traced, ?_, same ▸ later.nodup, ?_, ?_, ?_, ?_⟩
  · rw [List.map_append, visited, later.visited, List.reverse_append, List.reverse_singleton,
      List.filter_append]
  · intro p marked
    obtain marked | marked := List.mem_append.1 marked
    · exact later.live p marked
    · exact List.mem_singleton.1 marked ▸ live
  · intro p listed alive
    rw [same]
    obtain old | rfl | left := done p listed alive
    · exact List.mem_append_right _ (.tail _ old)
    · exact List.mem_append_right _ (.head _)
    · exact later.work_marked p (List.mem_append_right _ left) alive
  · intro p t marked edge alive
    rw [same]
    obtain marked | marked := List.mem_append.1 marked
    · obtain edge | edge := leads_append.1 edge
      · exact later.closed p t marked (edge.of_unvisited (unpaid p marked)) alive
      · exact later.closed p t marked edge alive
    · obtain rfl := List.mem_singleton.1 marked
      refine later.work_marked t (List.mem_append_left _ ((leads t).2 ?_)) alive
      obtain edge | edge := leads_append.1 edge
      · exact edge
      · exact edge.of_unvisited unvisited
  · intro P start step
    have first : P o := start o listed live
    have others : ∀ p ∈ new, P p := by
      refine later.least P (fun p listed alive => ?_) fun p t holds edge =>
        step p t holds (leads_append.2 (.inr edge))
      obtain listed | listed := List.mem_append.1 listed
      · exact step o p first (leads_append.2 (.inl ((leads p).1 listed))) alive
      · exact start p (sub listed) alive
    intro p marked
    obtain marked | marked := List.mem_append.1 marked
    · exact others p marked
    · exact List.mem_singleton.1 marked ▸ first

theorem next_unsettled {work old rest : List ObjectId} {o : ObjectId} {s : σ}
    (left : work.dropWhile (settled c.heap ⟨old, s⟩) = o :: rest) :
    c.isLive o ∧ o ∉ old ∧ o ∈ work ∧ rest ⊆ work ∧
      ∀ p ∈ work, c.isLive p → p ∈ old ∨ p = o ∨ p ∈ rest := by
  have split := List.takeWhile_append_dropWhile (p := settled c.heap ⟨old, s⟩) (l := work)
  rw [left] at split
  have unsettled : ¬ settled c.heap ⟨old, s⟩ o = true := by
    have := List.head_dropWhile_not (settled c.heap ⟨old, s⟩) (l := work) (by simp [left])
    simpa [left] using this
  have live : c.isLive o := by
    by_contra dead
    exact unsettled (settled_iff.2 fun live => absurd live dead)
  refine ⟨live, fun marked => unsettled (settled_iff.2 fun _ => marked), ?_, ?_, ?_⟩
  · rw [← split]
    exact List.mem_append_right _ (.head _)
  · rw [← split]
    exact fun p listed => List.mem_append_right _ (.tail _ listed)
  · intro p listed alive
    rw [← split] at listed
    obtain before | listed := List.mem_append.1 listed
    · exact .inl (settled_iff.1 (List.mem_takeWhile_imp before) alive)
    · exact .inr (List.mem_cons.1 listed)

theorem marked_of_full {old : List ObjectId} (nodup : old.Nodup) (live : ∀ o ∈ old, c.isLive o)
    (full : c.heap.ids.length ≤ old.length) {o : ObjectId} (alive : c.isLive o) : o ∈ old := by
  have sub : old.Subperm c.heap.ids :=
    nodup.subperm fun p marked => Heap.mem_ids.2 (live p marked)
  exact (sub.perm_of_length_le full).mem_iff.2 (Heap.mem_ids.2 alive)

/-- Marking within a budget for all live objects that are not marked yet. The budget
pays for the induction: every step marks one more live object. -/
theorem mark_marks (F : Foreign σ) (c : Context) (budget : Nat) (work old : List ObjectId) (s : σ)
    (nodup : old.Nodup) (live : ∀ o ∈ old, c.isLive o)
    (enough : c.heap.ids.length ≤ old.length + budget) :
    ∃ new visits s', mark F c.heap budget work ⟨old, s⟩ = ⟨new ++ old, s'⟩ ∧
      Marks F c work old new visits s s' := by
  induction budget generalizing work old s with
  | zero =>
    refine ⟨[], [], s, rfl, marks_nothing s nodup fun o _ alive => ?_⟩
    exact marked_of_full nodup live enough alive
  | succ budget ih =>
    unfold mark
    cases left : work.dropWhile (settled c.heap ⟨old, s⟩) with
    | nil =>
      refine ⟨[], [], s, rfl, marks_nothing s nodup fun o listed => ?_⟩
      exact settled_iff.1 (List.dropWhile_eq_nil_iff.1 left o listed)
    | cons o rest =>
      obtain ⟨alive, unmarked, listed, sub, done⟩ := next_unsettled left
      obtain ⟨x, found⟩ := Option.isSome_iff_exists.1 alive
      obtain ⟨paid, traced, visited, leads⟩ := successors_leads (F := F) (c := c) found s
      obtain ⟨new, visits, s', marked, later⟩ :=
        ih ((successors F o x s).1.reverse ++ rest) (o :: old) (successors F o x s).2
          (List.nodup_cons.2 ⟨unmarked, nodup⟩) (by simpa [alive] using live)
          (by simp only [List.length_cons]; omega)
      refine ⟨new ++ [o], paid ++ visits, s', ?_, ?_⟩
      · simp only [found, marked]
        simp
      · exact .cons alive listed sub done traced visited
          (fun t => List.mem_reverse.trans (leads t)) later

end Collector

end ProxyEngine
