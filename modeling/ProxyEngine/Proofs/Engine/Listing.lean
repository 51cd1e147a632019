import ProxyEngine.Proofs.Engine.Dispatch
import ProxyEngine.Proofs.Engine.History

/-! Listings into a vector. An operation that lists keys is handed the caller's vector. Where
nothing foreign runs it only adds to it: what it adds, whether it fails and what becomes of
the machine have nothing to do with what the vector held. -/

namespace ProxyEngine

variable {σ α : Type}

namespace Op

variable {listed : List PropertyKey}

/-- The same listing into another vector. -/
def into (v : List PropertyKey) : Op (.keys listed) → Op (.keys v)
  | ownKeys o _ => ownKeys o v
  | enumerate o _ => enumerate o v
  | ownEnumerableKeys o _ => ownEnumerableKeys o v

variable (op : Op (.keys listed)) (v : List PropertyKey)

@[simp] theorem into_self : op.into listed = op := by cases op <;> rfl

@[simp] theorem subject_into : (op.into v).subject = op.subject := by cases op <;> rfl

@[simp] theorem slot_into : (op.into v).slot = op.slot := by cases op <;> rfl

theorem redirect_into (t : ObjectId) : (op.into v).redirect t = (op.redirect t).into v := by
  cases op <;> rfl

theorem query?_keys : op.query? = none := by cases op <;> rfl

end Op

/-- The vector with some keys added to it, which do not depend on what it held. -/
def Extends (f : List PropertyKey → List PropertyKey) : Prop :=
  ∃ added, ∀ v, f v = v ++ added

theorem extends_id : Extends fun v => v :=
  ⟨[], fun v => (List.append_nil v).symm⟩

theorem extends_append (ks : List PropertyKey) : Extends fun v => v ++ ks :=
  ⟨ks, fun _ => rfl⟩

theorem Extends.push {f : List PropertyKey → List PropertyKey} (grown : Extends f) (here : Bool)
    (k : PropertyKey) : Extends fun v => if here then f v ++ [k] else f v := by
  obtain ⟨added, same⟩ := grown
  cases here with
  | true =>
    exact ⟨added ++ [k], fun v => (congrArg (· ++ [k]) (same v)).trans (List.append_assoc ..)⟩
  | false => exact ⟨added, same⟩

namespace Program

/-- Programs that list into a vector and are the same for every vector but for what it held. -/
inductive Lists : (List PropertyKey → Program σ Listing) → Prop
  | done {f : List PropertyKey → List PropertyKey} (failed : Bool) :
      Extends f → Lists fun v => done { keys := f v, failed }
  | look {next : List PropertyKey → Context → σ → Program σ Listing} :
      (∀ c s, Lists fun v => next v c s) → Lists fun v => look (next v)
  | store {s : σ} {next : List PropertyKey → Program σ Listing} :
      Lists next → Lists fun v => store s (next v)
  | ask {r : Request} {next : List PropertyKey → r.Response → Program σ Listing} :
      (∀ x, Lists fun v => next v x) → Lists fun v => ask r (next v)
  | perform {listed : List PropertyKey} (op : Op (.keys listed)) :
      Lists fun v => perform (op.into v)
  | walk {f : List PropertyKey → List PropertyKey} (o : ObjectId) (visited : List ObjectId)
      (seen : List PropertyKey) :
      Extends f → Lists fun v => .ask (.enumerateFrom o visited seen (f v)) .done

theorem Lists.after {p : Program σ α} {f : List PropertyKey → α → Program σ Listing}
    (rest : ∀ a, Lists fun v => f v a) : Lists fun v => p >>= f v := by
  induction p with
  | done a => exact rest a
  | look _ ih => exact .look ih
  | store s _ ih => exact .store ih
  | ask r _ ih => exact .ask ih

theorem lists_giveUp (kind : ErrorKind) (message : String) :
    Lists fun v => (giveUp (.keys v) kind message : Program σ Listing) :=
  Lists.after (p := report kind message) fun _ => .done true extends_id

end Program

open Program

theorem Ordinary.lists_visitKeys (o : ObjectId) (ks seen : List PropertyKey)
    {f : List PropertyKey → List PropertyKey} (grown : Extends f)
    {next : List PropertyKey → Listing × List PropertyKey → Program σ Listing}
    (rest : ∀ {g} failed seen, Extends g → Lists fun v => next v ({ keys := g v, failed }, seen)) :
    Lists fun v => visitKeys o ks seen (f v) >>= next v := by
  induction ks generalizing seen f with
  | nil => exact rest false seen grown
  | cons k ks ih =>
    by_cases skipped : (k.isSymbol || seen.contains k) = true
    · simp only [visitKeys, if_pos skipped]
      exact ih seen grown
    · simp only [visitKeys, if_neg skipped, bind_assoc]
      refine .after fun d => ?_
      cases d with
      | error e => exact rest true (k :: seen) grown
      | ok d => exact ih (k :: seen) (grown.push _ k)

theorem Ordinary.lists_enumerateFrom (o : ObjectId) (visited : List ObjectId)
    (seen : List PropertyKey) :
    Lists fun v => (enumerateFrom o visited seen v : Program σ Listing) := by
  unfold enumerateFrom
  by_cases before : visited.contains o = true
  · simp only [if_pos before]
    exact .done false extends_id
  · simp only [if_neg before]
    refine .after fun own => ?_
    by_cases lost : own.failed = true
    · simp only [if_pos lost]
      exact .done true extends_id
    · simp only [if_neg lost]
      refine lists_visitKeys o own.keys seen extends_id fun failed seen grown => ?_
      cases failed with
      | true => exact .done true grown
      | false =>
        refine .after fun proto => ?_
        rcases proto with _ | _ | p
        · exact .done true grown
        · exact .done false grown
        · exact .walk p (o :: visited) seen grown

theorem Ordinary.lists_method {listed : List PropertyKey} (op : Op (.keys listed)) :
    Lists fun v => (method (op.into v) : Program σ Listing) := by
  cases op with
  | ownKeys o => exact .look fun c _ => .done false (extends_append (c.ownKeys o))
  | enumerate o => exact .walk o [] [] extends_id
  | ownEnumerableKeys o =>
    exact .look fun c _ => .done false (extends_append (c.ownEnumerableKeys o))

theorem Plain.lists_enumerableAmong (o : ObjectId) (ks : List PropertyKey)
    {f : List PropertyKey → List PropertyKey} (grown : Extends f) :
    Lists fun v => (enumerableAmong o ks (f v) : Program σ Listing) := by
  induction ks generalizing f with
  | nil => exact .done false grown
  | cons k ks ih =>
    unfold enumerableAmong
    refine .after fun d => ?_
    cases d with
    | error e => exact .done true grown
    | ok d => exact ih (grown.push _ k)

theorem Plain.lists_method {listed : List PropertyKey} (op : Op (.keys listed)) :
    Lists fun v => (method (op.into v) : Program σ Listing) := by
  cases op with
  | ownKeys o => exact .done false extends_id
  | enumerate o => exact .walk o [] [] extends_id
  | ownEnumerableKeys o =>
    refine .after fun own => ?_
    by_cases lost : own.failed = true
    · simp only [if_pos lost]
      exact .done true extends_id
    · simp only [if_neg lost]
      exact lists_enumerableAmong o own.keys extends_id

theorem BaseHandler.lists_method {listed : List PropertyKey} (base : BaseHandler)
    (op : Op (.keys listed)) :
    Lists fun v => (base.method (op.into v) : Program σ Listing) := by
  cases base with
  | plain => exact Plain.lists_method op
  | wrapper =>
    unfold BaseHandler.method Wrapper.method
    simp only [Op.subject_into]
    refine .after fun c => ?_
    cases c.target? op.subject with
    | some t =>
      simp only [Op.redirect_into]
      exact .perform (op.redirect t)
    | none => exact lists_giveUp _ _

/-- What a run into the vector `v`, with the history `t`, says about the same run into any
vector, if nothing foreign ran. -/
def History.Adds (ran : List PropertyKey → Except Stop (Listing × Machine σ))
    (v : List PropertyKey) (t : History) : Prop :=
  ∀ ⦃l m'⦄, ran v = .ok (l, m') → t.Quiet → ∃ added, l.keys = v ++ added ∧
    ∀ w, ran w = .ok ({ keys := w ++ added, failed := l.failed }, m')

namespace Engine

open History

variable {answer : Answerer σ} {asked : Request → Machine σ → History} {F : Foreign σ}
  {v : List PropertyKey} {t : History} {m : Machine σ}

theorem adds_nested {x : List PropertyKey → Run σ Listing}
    (adds : Adds (fun w => x w (m.deeper 1)) v t) :
    Adds (fun w => (x w).nested 1 m) v t.below := by
  intro l m' ended quiet
  cases ran : x v (m.deeper 1) with
  | error why =>
    exact nomatch (Run.nested_of_error ran).symm.trans ended
  | ok result =>
    obtain ⟨⟩ := (Run.nested_of_ok ran).symm.trans ended
    obtain ⟨added, same, others⟩ := adds ran (quiet_below.1 quiet)
    exact ⟨added, same, fun w => Run.nested_of_ok (others w)⟩

structure Appends (answer : Answerer σ) (asked : Request → Machine σ → History) : Prop where
  perform : ∀ {listed} (op : Op (.keys listed)) v m,
    Adds (fun w => answer (.perform (op.into w)) m) v (asked (.perform (op.into v)) m)
  walk : ∀ o visited seen v m, Adds (fun w => answer (.enumerateFrom o visited seen w) m) v
    (asked (.enumerateFrom o visited seen v) m)

section

variable (appends : Appends answer asked)

include appends

theorem adds_program {p : List PropertyKey → Program σ Listing} (lists : Lists p)
    (v : List PropertyKey) (m : Machine σ) :
    Adds (fun w => (p w).run answer m) v ((p v).history answer asked m) := by
  induction lists generalizing m with
  | done failed grown =>
    obtain ⟨added, same⟩ := grown
    rintro l m' ⟨⟩ -
    refine ⟨added, same v, fun w => ?_⟩
    exact congrArg (fun ks => Except.ok (Listing.mk ks failed, m)) (same w)
  | look _ ih => exact ih m.context m.state m
  | @store s next _ ih => exact ih { m with state := s }
  | @ask r next _ ih =>
    intro l m' ended quiet
    obtain ⟨x, m₁, first, rest⟩ := Run.bind_eq_ok.1 ended
    have late : ((next v x).history answer asked m₁).Quiet := by
      unfold Program.history at quiet
      rw [first, andThen_ok] at quiet
      exact (quiet_append.1 quiet).2
    obtain ⟨added, same, others⟩ := ih x m₁ rest late
    exact ⟨added, same, fun w => (Run.bind_of_ok first).trans (others w)⟩
  | perform op =>
    intro l m' ended quiet
    obtain ⟨a, m₁, first, ⟨⟩⟩ := Run.bind_eq_ok.1 ended
    have early : (asked (.perform (op.into v)) m).Quiet := (quiet_append.1 quiet).1
    obtain ⟨added, same, others⟩ := appends.perform op v m first early
    exact ⟨added, same, fun w => Run.bind_of_ok (others w)⟩
  | @walk f o visited seen grown =>
    obtain ⟨before, same⟩ := grown
    intro l m' ended quiet
    obtain ⟨a, m₁, first, ⟨⟩⟩ := Run.bind_eq_ok.1 ended
    have early := (quiet_append.1 quiet).1
    rw [same v] at first early
    obtain ⟨added, listed, others⟩ := appends.walk o visited seen (v ++ before) m first early
    refine ⟨before ++ added, listed.trans (List.append_assoc ..), fun w => ?_⟩
    have other : answer (.enumerateFrom o visited seen (f w)) m = .ok (_, m') :=
      same w ▸ others (w ++ before)
    rw [← List.append_assoc, ← same w]
    exact Run.bind_of_ok other

theorem adds_method {listed : List PropertyKey} (F : Foreign σ) (h : Handler)
    (op : Op (.keys listed)) (v : List PropertyKey) (m : Machine σ) :
    Adds (fun w => (F.method h (op.into w)).run answer m) v
      (bodyHistory answer asked (.method h (op.into v)) Listing.failed
        (F.method h (op.into v)) m) := by
  cases trapped : h.trapped? op.slot with
  | some id =>
    have foreign : (Body.method h (op.into v)).isForeign = true := by
      simp [Body.isForeign, trapped]
    exact fun _ _ _ quiet => absurd quiet (not_quiet_bodyHistory foreign)
  | none =>
    have builtin (w : List PropertyKey) :
        (F.method h (op.into w) : Program σ Listing) = h.base.method (op.into w) :=
      F.method_of_empty (by rw [Op.slot_into, trapped])
    have adds := adds_program appends (h.base.lists_method op) v m
    simp only [builtin]
    exact fun _ _ ended quiet => adds ended (quiet_of_around quiet)

theorem adds_dispatch {listed : List PropertyKey} (F : Foreign σ) (op : Op (.keys listed))
    (v : List PropertyKey) (m : Machine σ) :
    Adds (fun w => dispatch F answer (op.into w) m) v
      (dispatchHistory F answer asked (op.into v) m) := by
  unfold dispatchHistory dispatch
  simp only [Op.subject_into, Run.bind_context]
  cases m.context.get? op.subject with
  | none => exact adds_program appends (lists_giveUp _ _) v m
  | some x =>
    dsimp only
    cases x.proxy? with
    | none => exact adds_program appends (Ordinary.lists_method op) v m
    | some p =>
      dsimp only
      unfold depthHistory
      by_cases room : m.context.depth < m.context.maxDepth
      · simp only [atDepth_of_room room, if_pos room]
        exact adds_nested (adds_method appends F p.handler op v (m.deeper 1))
      · simp only [atDepth_of_full room, if_neg room]
        exact adds_program appends (lists_giveUp _ _) v m

theorem appends_step (F : Foreign σ) :
    Appends (step F answer) (stepHistory F answer asked) where
  perform op v m := by
    have dispatched (w : List PropertyKey) :
        step F answer (.perform (op.into w)) m = dispatch F answer (op.into w) m :=
      congrFun (perform_unasked (Op.query?_keys _)) m
    have history : stepHistory F answer asked (.perform (op.into v)) m =
        dispatchHistory F answer asked (op.into v) m :=
      performHistory_unasked _ _ _ (Op.query?_keys _) m
    simp only [dispatched, history]
    exact adds_dispatch appends F op v m
  walk o visited seen v m :=
    adds_program appends (Ordinary.lists_enumerateFrom o visited seen) v m

end

theorem appends_answer (F : Foreign σ) (fuel : Nat) :
    Appends (Engine.answer F fuel) (Engine.history F fuel) := by
  induction fuel with
  | zero =>
    exact ⟨fun _ _ _ _ _ ended => (nomatch ended), fun _ _ _ _ _ _ _ ended => (nomatch ended)⟩
  | succ fuel ih =>
    have step := appends_step ih F
    exact ⟨fun op v m _ _ ended quiet => step.perform op v m ended (quiet_of_around quiet),
      fun o visited seen v m _ _ ended quiet =>
        step.walk o visited seen v m ended (quiet_of_around quiet)⟩

end Engine

end ProxyEngine
