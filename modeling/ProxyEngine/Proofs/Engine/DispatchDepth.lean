import ProxyEngine.Proofs.Engine.Law

/-! The dispatch depth is a count of running bodies. An operation ends at the depth
it started at, every context on the way is as deep as there are levels entered and
not left, and no level is entered beyond the limit. The counter therefore fits its
word, and leaving a level never takes it below zero. -/

namespace ProxyEngine

namespace Context

variable {c c' : Context}

theorem maxDepth_lt (c : Context) : c.maxDepth < 4294967296 :=
  c.options.maxDispatchDepth.toNat_lt

theorem Step.within (step : c.Step c') (within : c.depth ≤ c.maxDepth) :
    c'.depth ≤ c'.maxDepth := by
  cases step with
  | edit edit =>
    rw [edit.edits.depth, maxDepth, edit.edits.options]
    exact within
  | enter room => exact room
  | leave => exact (Nat.sub_le ..).trans within
  | sweep dead marked =>
    rw [releaseAll_rest]
    exact within

theorem Reachable.within (reachable : c.Reachable) : c.depth ≤ c.maxDepth := by
  obtain ⟨options, reaches⟩ := reachable
  induction reaches with
  | refl => exact Nat.zero_le _
  | tail _ step ih => exact step.within ih

end Context

namespace Place

/-- As deep as levels were entered since `p`, and not beyond the limit of `p`. -/
structure Levels (p q : Place) : Prop where
  options : q.context.options = p.context.options
  depth : q.context.depth + p.level = p.context.depth + q.level
  within : p.context.depth ≤ p.context.maxDepth → q.context.depth ≤ p.context.maxDepth

end Place

def Event.isBody : Event → Bool
  | .started _ | .ended .. => true
  | _ => false

def History.Sunk (t : History) : Prop :=
  ∀ μ ∈ t, μ.event.isBody = true → 1 ≤ μ.level

namespace History

theorem Sunk.append {t t' : History} (first : Sunk t) (second : Sunk t') : Sunk (t ++ t') :=
  List.forall_mem_append.2 ⟨first, second⟩

theorem sunk_below (t : History) : Sunk t.below := by
  intro μ here _
  obtain ⟨ν, -, rfl⟩ := mem_below.1 here
  exact Nat.succ_le_succ (Nat.zero_le ν.level)

variable {σ α : Type}

theorem Sunk.andThen {t : History} {ran : Except Stop (α × Machine σ)}
    {rest : α → Machine σ → History} (first : Sunk t) (more : ∀ a m, Sunk (rest a m)) :
    Sunk (t.andThen ran rest) := by
  rcases ran with why | ⟨a, m⟩
  · rwa [andThen_error]
  · exact first.append (more a m)

theorem sunk_moment (m : Machine σ) {event : Event} (other : event.isBody = false) :
    Sunk [m.moment event] := by
  intro μ here body
  rw [List.mem_singleton.1 here] at body
  exact nomatch other.symm.trans body

end History

namespace Engine

open History

variable {σ α : Type}

theorem law_levels : Law (fun _ => True) Place.Levels where
  builtin _ _ := trivial
  refl p := ⟨rfl, rfl, id⟩
  trans {p q r} first second := by
    have limit : q.context.maxDepth = p.context.maxDepth := by
      rw [Context.maxDepth, first.options, Context.maxDepth]
    refine ⟨second.options.trans first.options, ?_, fun within => ?_⟩
    · have := first.depth
      have := second.depth
      omega
    · rw [← limit]
      exact second.within (limit ▸ first.within within)
  act {a c x c'} _ ran := by
    have edits := a.edits ran
    exact ⟨edits.options, by rw [edits.depth], fun within => by rwa [edits.depth]⟩
  below {p q} related := by
    refine ⟨related.options, ?_, related.within⟩
    have := related.depth
    simp only [Place.below]
    omega
  enter room := ⟨rfl, rfl, fun _ => room⟩
  leave {c c'} room body := by
    have entered : c'.depth = c.depth + 1 := body.depth
    refine ⟨rfl, ?_, fun within => (Nat.sub_le ..).trans within⟩
    show c'.depth - 1 + 1 = c'.depth
    omega
  sweep c dead marked := by
    rw [Context.releaseAll_rest]
    exact ⟨rfl, rfl, id⟩

/-! Where bodies start and end. -/

section

variable {F : Foreign σ} {answer : Answerer σ} {asked : Request → Machine σ → History}
  (sunk : ∀ r m, r.Builtin → Sunk (asked r m))

include sunk

theorem sunk_program {fails : α → Bool} {p : Program σ α} (propagates : p.Propagates fails)
    (m : Machine σ) : Sunk (p.history answer asked m) := by
  -- Only requests that no built-in method makes start a body without entering a level.
  have only := propagates.only
  clear propagates
  induction only generalizing m with
  | done a => exact fun _ here => nomatch here
  | look _ ih => exact ih m.context m.state m
  | @store s next _ ih => exact ih { m with state := s }
  | @ask r next builtin _ ih => exact (sunk r m builtin).andThen ih

theorem sunk_depth (s : Shape) (b : Body) (p : Program σ s.Answer) (m : Machine σ) :
    Sunk (depthHistory answer asked s b p m) := by
  unfold depthHistory
  split
  · exact sunk_below _
  · exact sunk_program sunk (Program.propagates_giveUp ..) m

theorem sunk_dispatch {s : Shape} (op : Op s) (m : Machine σ) :
    Sunk (dispatchHistory F answer asked op m) := by
  unfold dispatchHistory
  split
  · exact sunk_program sunk (Program.propagates_giveUp ..) m
  · split
    · exact sunk_depth sunk s _ _ m
    · exact sunk_program sunk (Ordinary.propagates_method op) m

theorem sunk_perform {s : Shape} (op : Op s) (m : Machine σ) :
    Sunk (performHistory F answer asked op m) := by
  refine (sunk_program sunk (propagates_incapable? op) m).andThen fun early m₁ => ?_
  cases early with
  | some a => exact fun _ here => nomatch here
  | none => exact sunk_dispatch sunk op.normalized m₁

theorem sunk_step {r : Request} (builtin : r.Builtin) (m : Machine σ) :
    Sunk (stepHistory F answer asked r m) := by
  cases r with
  | act a => exact fun _ here => nomatch here
  | perform op => exact sunk_perform sunk op m
  | runFunction code this args => exact sunk_depth sunk .value _ _ m
  | enumerateFrom o visited seen listed =>
    exact sunk_program sunk (Ordinary.propagates_enumerateFrom o visited seen listed) m
  | _ => cases builtin

end

theorem sunk_history (F : Foreign σ) (fuel : Nat) {r : Request} (builtin : r.Builtin)
    (m : Machine σ) : Sunk (history F fuel r m) := by
  have around (r : Request) {x : Run σ r.Response} {inner : Machine σ → History}
      (m : Machine σ) (sunk : Sunk (inner m)) :
      Sunk (History.around (.asked r) (fun _ => .answered r) x inner m) :=
    (sunk_moment m rfl).append (sunk.andThen fun _ m' => sunk_moment m' rfl)
  induction fuel generalizing r m with
  | zero => exact around r m fun _ here => nomatch here
  | succ fuel ih => exact around r m (sunk_step (fun _ m builtin => ih builtin m) builtin m)

/-- An operation ends at the depth it started at. On the way every context is as deep as
levels were entered and not left, within the limit; bodies run at depths from one up,
so with a limit of zero there are none. -/
theorem dispatch_balanced (F : Foreign σ) (fuel : Nat) {s : Shape} (op : Op s) {m : Machine σ}
    (reachable : m.context.Reachable) :
    (∀ (a : s.Answer) m', issue F fuel op m = .ok (a, m') →
      m'.context.depth = m.context.depth) ∧
    m.context.maxDepth < 4294967296 ∧
    ∀ μ ∈ history F fuel (.perform op) m,
      μ.context.depth = m.context.depth + μ.level ∧
      μ.context.maxDepth = m.context.maxDepth ∧
      μ.context.depth ≤ μ.context.maxDepth ∧
      (μ.event.isBody = true → 1 ≤ μ.level ∧ 1 ≤ μ.context.depth ∧ μ.context.maxDepth ≠ 0) := by
  refine ⟨fun a m' ended => (answer_returns F fuel _ ended).2, m.context.maxDepth_lt,
    fun μ here => ?_⟩
  have follows := law_levels.follows_answer F.only_any fuel (r := .perform op) trivial m
  have levels : m.place.Levels μ.toPlace :=
    (List.pairwise_cons.1 follows.along).1 _ (List.mem_map_of_mem here)
  have depth : μ.context.depth = m.context.depth + μ.level := levels.depth
  have limit : μ.context.maxDepth = m.context.maxDepth := by
    rw [Context.maxDepth, levels.options]
    rfl
  have within : μ.context.depth ≤ μ.context.maxDepth := limit ▸ levels.within reachable.within
  refine ⟨depth, limit, within, fun body => ?_⟩
  have entered := sunk_history F fuel (r := .perform op) trivial m μ here body
  refine ⟨entered, ?_, ?_⟩ <;> omega

def spiral : Foreign Unit :=
  { Foreign.idle with trap := fun _ op out => (fun _ => ⟨true, out⟩) <$> Program.perform op }

theorem spiral_balanced : ∃ p c,
    Update.newProxy (.traps ⟨⟨0⟩, [.get]⟩ 0 .plain) .undefined none {}
      (Context.create { maxDispatchDepth := 2 }) = some (p, c) ∧
    ∃ m', issue spiral 4 (.get p .undefined .void) ⟨c, ()⟩ = .ok (.ok .undefined, m') ∧
      m'.context.depth = 0 ∧
      ∀ μ ∈ history spiral 4 (.perform (.get p .undefined .void)) ⟨c, ()⟩,
        μ.context.depth ≤ 2 := by
  have bounded : ∀ p c, Update.newProxy (.traps ⟨⟨0⟩, [.get]⟩ 0 .plain) .undefined none {}
      (Context.create { maxDispatchDepth := 2 }) = some (p, c) →
      ∀ μ ∈ history spiral 4 (.perform (.get p .undefined .void)) ⟨c, ()⟩,
        μ.context.depth ≤ 2 := by
    intro p c made μ here
    have edits := (Update.tightens_alloc _ _ made).edits
    obtain ⟨-, limit, within, -⟩ := (dispatch_balanced spiral 4 (.get p .undefined .void)
      (m := ⟨c, ()⟩) ⟨_, edits.reaches⟩).2.2 μ here
    rwa [limit, Context.maxDepth, edits.options] at within
  exact ⟨_, _, rfl, _, rfl, rfl, bounded _ _ rfl⟩

end Engine

end ProxyEngine
