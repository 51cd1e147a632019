import ProxyEngine.Proofs.Engine.Composition

/-! Laws about everything that happens. A law is a preorder on places that single
requests obey and that dispatch levels and collections respect. Then it holds
between any two moments of any history, the earlier one first: one induction on
fuel serves every law, and foreign code is bound only in what it may ask for. -/

namespace ProxyEngine

variable {σ α β : Type}

/-- How `R` relates an earlier place to a later one, whatever requests in `P` lead on. -/
structure Law (P : Request → Prop) (R : Place → Place → Prop) : Prop where
  builtin : ∀ r, r.Builtin → P r
  refl : ∀ p, R p p
  trans : ∀ {p q r}, R p q → R q r → R p r
  act : ∀ {a : Action} {c x c'}, P (.act a) → a.update c = some (x, c') →
    R { context := c } { context := c' }
  below : ∀ {p q}, R p q → R p.below q.below
  enter : ∀ {c : Context}, c.depth < c.maxDepth →
    R { context := c } { context := { c with depth := c.depth + 1 }, level := 1 }
  leave : ∀ {c c' : Context}, c.depth < c.maxDepth →
    R { context := { c with depth := c.depth + 1 } } { context := c' } →
    R { context := c', level := 1 } { context := { c' with depth := c'.depth - 1 } }
  sweep : ∀ (c : Context) (dead : List ObjectId) (marked : Nat),
    R { context := c }
      { context := (c.releaseAll dead).2.recordCollection marked (c.releaseAll dead).1 }

/-- The places of a run with history `t`, from its start at `m` to its end, are in order. -/
structure History.Follows (R : Place → Place → Prop) (m : Machine σ) (t : History)
    (ran : Except Stop (α × Machine σ)) : Prop where
  along : (m.place :: t.places).Pairwise R
  last : ∀ ⦃a m'⦄, ran = .ok (a, m') → ∀ p ∈ m.place :: t.places, R p m'.place

namespace Law

open History

variable {P : Request → Prop} {R : Place → Place → Prop} {m : Machine σ} {t : History}
  {x : Run σ α}

theorem follows_silent {ran : Except Stop (α × Machine σ)}
    (one : ∀ a m', ran = .ok (a, m') → R m.place m'.place) : Follows R m [] ran where
  along := List.pairwise_singleton ..
  last a m' ended p here := by
    rw [List.mem_singleton.1 here]
    exact one a m' ended

theorem follows_stopped {why : Stop} (along : (m.place :: t.places).Pairwise R) :
    Follows R m t (.error why : Except Stop (α × Machine σ)) :=
  ⟨along, fun _ _ ended => nomatch ended⟩

variable (law : Law P R)

include law

theorem follows_pure (a : α) : Follows R m [] ((pure a : Run σ α) m) :=
  follows_silent fun _ _ ended => by
    cases ended
    exact law.refl _

theorem follows_bind {f : α → Run σ β} {rest : α → Machine σ → History}
    (first : Follows R m t (x m)) (more : ∀ a m₁, Follows R m₁ (rest a m₁) (f a m₁)) :
    Follows R m (t.andThen (x m) rest) ((x >>= f) m) := by
  cases ran : x m with
  | error why =>
    rw [Run.bind_of_error ran, andThen_error]
    exact follows_stopped first.along
  | ok result =>
    obtain ⟨a, m₁⟩ := result
    rw [Run.bind_of_ok ran]
    -- Early places reach late ones through `m₁`.
    have before := first.last ran
    obtain ⟨along, last⟩ := more a m₁
    obtain ⟨after, later⟩ := List.pairwise_cons.1 along
    have parts : m.place :: (t.andThen (.ok (a, m₁)) rest).places =
        (m.place :: t.places) ++ (rest a m₁).places := by
      simp
    constructor
    · rw [parts]
      exact List.pairwise_append.2 ⟨first.along, later, fun p early q late =>
        law.trans (before p early) (after q late)⟩
    · intro b m' ended p here
      rw [parts] at here
      rcases List.mem_append.1 here with early | late
      · exact law.trans (before p early) (last ended _ (.head _))
      · exact last ended p (.tail _ late)

theorem chains : Chains (Follows R : Account σ) where
  pure a _ := law.follows_pure a
  store follows := ⟨follows.along, follows.last⟩
  bind _ first more := law.follows_bind first more

theorem follows_around {first : Event} {last : α → Event} {inner : Machine σ → History}
    (follows : Follows R m (inner m) (x m)) :
    Follows R m (around first last x inner m) (x m) := by
  have opened : (m.place :: m.place :: (inner m).places).Pairwise R := by
    refine List.pairwise_cons.2 ⟨fun p here => ?_, follows.along⟩
    rcases List.mem_cons.1 here with rfl | late
    · exact law.refl _
    · exact (List.pairwise_cons.1 follows.along).1 p late
  unfold around
  cases ran : x m with
  | error why =>
    refine follows_stopped ?_
    simpa using opened
  | ok result =>
    obtain ⟨a, m₁⟩ := result
    have ends : ∀ p ∈ m.place :: m.place :: (inner m).places, R p m₁.place := by
      intro p here
      exact follows.last ran p (by simpa using here)
    have parts : m.place :: places (m.moment first :: (inner m).andThen (.ok (a, m₁))
        fun a m' => [m'.moment (last a)]) =
        (m.place :: m.place :: (inner m).places) ++ [m₁.place] := by
      simp
    constructor
    · rw [parts]
      refine List.pairwise_append.2 ⟨opened, List.pairwise_singleton .., ?_⟩
      rintro p early q late
      rw [List.mem_singleton.1 late]
      exact ends p early
    · rintro b m' ⟨⟩ p here
      rw [parts] at here
      rcases List.mem_append.1 here with early | late
      · exact ends p early
      · rw [List.mem_singleton.1 late]
        exact law.refl _

/-- A run one level further down: its places are below, and it comes back. -/
theorem follows_nested (room : m.context.depth < m.context.maxDepth)
    (follows : Follows R (m.deeper 1) t (x (m.deeper 1))) :
    Follows R m t.below (x.nested 1 m) := by
  have entered : R m.place (m.deeper 1).place.below := law.enter room
  have inside : ((m.deeper 1).place.below :: t.below.places).Pairwise R := by
    rw [places_below, ← List.map_cons]
    exact List.pairwise_map.2 (follows.along.imp law.below)
  have along : (m.place :: t.below.places).Pairwise R :=
    List.pairwise_cons.2 ⟨fun p late => law.trans entered ((List.pairwise_cons.1 inside).1 p late),
      inside.tail⟩
  cases ran : x (m.deeper 1) with
  | error why =>
    rw [Run.nested_of_error ran]
    exact follows_stopped along
  | ok result =>
    obtain ⟨a, m₁⟩ := result
    rw [Run.nested_of_ok ran]
    refine ⟨along, ?_⟩
    rintro _ _ ⟨⟩ p here
    -- The way out is a step of its own, and it may depend on the whole way through the body.
    have left : R m₁.place.below (m₁.shallower 1).place :=
      law.leave room (follows.last ran _ (.head _))
    have lowered : ∀ q ∈ (m.deeper 1).place :: t.places, R q.below (m₁.shallower 1).place :=
      fun q early => law.trans (law.below (follows.last ran q early)) left
    rcases List.mem_cons.1 here with rfl | late
    · exact law.trans entered (lowered _ (.head _))
    · rw [places_below] at late
      obtain ⟨q, early, rfl⟩ := List.mem_map.1 late
      exact lowered q (.tail _ early)

theorem follows_collect {F : Foreign σ} {fuel : Nat} (m : Machine σ)
    (finalizers : ∀ h o m, Follows R m (Engine.runHistory F fuel (F.finalizer h o) m)
      (Engine.run F fuel (F.finalizer h o) m)) :
    Follows R m
      (Engine.collectHistory F (Engine.answer F fuel) (Engine.history F fuel) m)
      (Collector.collect F (Engine.answer F fuel) m) := by
  let marking := Collector.mark F m.context.heap m.context.heap.live m.context.markRoots
    { state := m.state }
  have finalizing := law.chains.finalizeAll
    (fun h o m _ => law.follows_around (finalizers h o m))
    (Collector.unmarked m.context marking) { m with state := marking.state }
  refine ⟨finalizing.along, fun n m' ended p here => ?_⟩
  -- Marking leaves the context alone, so the finalizers start where the collection does.
  obtain ⟨mid, ran, -, rfl⟩ := Collector.collect_eq_ok.1 ended
  exact law.trans (finalizing.last ran p here) (law.sweep mid.context _ _)

theorem composes (F : Foreign σ) : Composes F P (Follows R) where
  toChains := law.chains
  builtin := law.builtin
  unanswered m _ := follows_stopped (by simpa using law.refl m.place)
  act m holds := law.follows_around <| follows_silent fun x m' ended => by
    obtain ⟨c, ran, rfl⟩ := Run.update_eq_ok.1 ended
    exact law.act holds ran
  request _ _ follows := law.follows_around follows
  body _ follows := law.follows_around follows
  nested room follows := law.follows_nested room follows
  collect m _ finalizers := law.follows_around (law.follows_collect m finalizers)

variable {F : Foreign σ} (foreign : F.Only P)

include foreign

theorem follows_answer (fuel : Nat) {r : Request} (holds : P r) (m : Machine σ) :
    Follows R m (Engine.history F fuel r m) (Engine.answer F fuel r m) :=
  (law.composes F).answer foreign fuel holds m

theorem follows_run (fuel : Nat) {p : Program σ α} (only : p.Only P) (m : Machine σ) :
    Follows R m (Engine.runHistory F fuel p m) (Engine.run F fuel p m) :=
  (law.composes F).run foreign fuel only m

end Law

end ProxyEngine
