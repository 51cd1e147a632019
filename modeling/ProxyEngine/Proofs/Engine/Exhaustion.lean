import ProxyEngine.Proofs.Engine.Barred
import ProxyEngine.Proofs.Engine.DispatchDepth

/-! Out of dispatch depth. When no level is left, an operation on a proxy reports that
there was too much recursion, whatever the handler is, except for calls and constructs:
their capability query comes first and is answered with no, so what is reported is that
the proxy is not capable. The query needs levels of its own, and the same happens
already when fewer are left than it needs. -/

namespace ProxyEngine

namespace Context

/-- A capability query that built-in handlers answer, with the levels it enters and the answer
it comes to when they are there. A constructor query on a plain proxy goes on with a
callable query, and a query on a wrapper with one on its target. -/
inductive Query (c : Context) : Op .capability → Nat → Bool → Prop
  | dead {q : Op .capability} : c.get? q.subject = none → Query c q 0 false
  | ordinary {q : Op .capability} {x : Object} : c.get? q.subject = some x → x.proxy? = none →
      Query c q 0 (c.capability q.subject q)
  | callable {o : ObjectId} {h : Handler} : c.handler? o = some h → h.base = .plain →
      h.trapped? .isCallable = none → Query c (.isCallable o) 1 (c.storedCallable o)
  | constructor {o : ObjectId} {h : Handler} {n : Nat} {b : Bool} : c.handler? o = some h →
      h.base = .plain → h.trapped? .isConstructor = none → Query c (.isCallable o) n b →
      Query c (.isConstructor o) (n + 1) b
  | wrapper {q : Op .capability} {h : Handler} {t : ObjectId} {n : Nat} {b : Bool} :
      c.handler? q.subject = some h → h.base = .wrapper → h.trapped? q.slot = none →
      c.target? q.subject = some t → Query c (q.redirect t) n b → Query c q (n + 1) b
  | astray {q : Op .capability} {h : Handler} : c.handler? q.subject = some h →
      h.base = .wrapper → h.trapped? q.slot = none → c.target? q.subject = none →
      Query c q 1 false

variable {c : Context} {q : Op .capability} {n : Nat} {b : Bool}

theorem Query.pos (query : c.Query q n b) {h : Handler} (handler : c.handler? q.subject = some h) :
    0 < n := by
  have found := (c.handler?_eq q.subject).symm.trans handler
  cases query with
  | dead dead =>
    rw [dead] at found
    cases found
  | ordinary found' other =>
    rw [found', Option.bind_some, Object.handler?, other] at found
    cases found
  | _ => omega

theorem Reports.unique {kind kind' : ErrorKind} {message message' : String}
    (first : c.Reports kind message) (second : c.Reports kind' message') :
    kind = kind' ∧ message = message' := by
  obtain ⟨e, pending, info⟩ := first
  obtain ⟨e', pending', info'⟩ := second
  have values : Value.object e = Value.object e' := Option.some.inj (pending.symm.trans pending')
  have handles : e = e' := by simpa using congrArg Value.asObject? values
  rw [handles] at info
  exact Prod.mk.inj (Option.some.inj (info.symm.trans info'))

end Context

variable {σ : Type} {s : Shape}

namespace Engine

variable {F : Foreign σ} {m : Machine σ} {op : Op s} {p : ObjectId} {q : Op .capability} {n : Nat}
  {b : Bool}

theorem dispatch_builtin {h : Handler} {answer : Answerer σ}
    (handler : m.context.handler? op.subject = some h) (empty : h.trapped? op.slot = none)
    (room : m.context.depth < m.context.maxDepth) :
    dispatch F answer op m = ((h.base.method op).run answer).nested 1 m := by
  rw [dispatch_proxy handler room, F.method_of_empty empty]

/-- One level of a query: its method answers it if there is room, and otherwise the answer
is no. -/
theorem issue_query_step {h : Handler} (handler : m.context.handler? q.subject = some h)
    (empty : h.trapped? q.slot = none) {fuel : Nat}
    (below : m.context.depth < m.context.maxDepth →
      ((h.base.method q).run (Engine.answer F fuel)) (m.deeper 1) =
        .ok (decide (m.context.depth + 1 + n ≤ m.context.maxDepth) && b, m.deeper 1)) :
    issue F (fuel + 1) q m =
      .ok (decide (m.context.depth + (n + 1) ≤ m.context.maxDepth) && b, m) := by
  by_cases room : m.context.depth < m.context.maxDepth
  · rw [issue_unasked (Op.query?_capability q), dispatch_builtin handler empty room,
      Run.nested_of_ok (below room), Machine.shallower_deeper, Nat.add_right_comm, Nat.add_assoc]
  · have short : ¬ m.context.depth + (n + 1) ≤ m.context.maxDepth := by omega
    rw [issue_barred_unfailing (.full handler (Nat.le_of_not_lt room)) rfl,
      decide_eq_false short]
    rfl

theorem issue_query_at {c : Context} (query : c.Query q n b) (F : Foreign σ) (fuel : Nat) {d : Nat}
    (within : d ≤ c.maxDepth) (state : σ) :
    issue F (fuel + n + 1) q ⟨{ c with depth := d }, state⟩ =
      .ok (decide (d + n ≤ c.maxDepth) && b, ⟨{ c with depth := d }, state⟩) := by
  induction query generalizing fuel d with
  | dead dead =>
    rw [issue_barred_unfailing (.dead dead) rfl, Bool.and_false]
    rfl
  | @ordinary q x found other =>
    refine (congrFun (issue_unasked (Op.query?_capability q)) _).trans ?_
    refine (dispatch_ordinary (m := ⟨{ c with depth := d }, state⟩) found other).trans ?_
    rw [Nat.add_zero, decide_eq_true within, Bool.true_and]
    cases q <;> rfl
  | @callable o h handler plain empty =>
    refine issue_query_step (m := ⟨{ c with depth := d }, state⟩) (q := .isCallable o) (n := 0)
      handler empty fun room => ?_
    have enough : d + 1 + 0 ≤ c.maxDepth := room
    rw [plain]
    show _ = Except.ok (decide (d + 1 + 0 ≤ c.maxDepth) && c.storedCallable o, _)
    rw [decide_eq_true enough]
    rfl
  | @constructor o h n b handler plain empty rest ih =>
    refine issue_query_step (m := ⟨{ c with depth := d }, state⟩) (q := .isConstructor o)
      handler empty fun room => ?_
    rw [plain]
    exact (congrFun (run_perform (fuel + n + 1) (.isCallable o)) _).trans (ih fuel room)
  | @wrapper q h t n b handler wrapper empty next rest ih =>
    refine issue_query_step (m := ⟨{ c with depth := d }, state⟩) handler empty fun room => ?_
    rw [wrapper]
    exact (wrapper_method q next).trans (ih fuel room)
  | @astray q h handler wrapper empty lost =>
    refine issue_query_step (m := ⟨{ c with depth := d }, state⟩) (n := 0) handler empty
      fun _ => ?_
    rw [wrapper, Bool.and_false]
    exact wrapper_astray q lost

theorem issue_asked (query : m.context.Query q n true) (asked : op.query? = some q)
    {h : Handler} (handler : m.context.handler? op.subject = some h)
    (within : m.context.depth ≤ m.context.maxDepth) (fuel : Nat) :
    issue F (fuel + n + 2) op m =
      if m.context.depth + n ≤ m.context.maxDepth then
        ((F.method h op.normalized).run (Engine.answer F (fuel + n + 1))).nested 1 m
      else Run.update (.complain op op.subject) m := by
  have answered := issue_query_at query F fuel within m.state
  by_cases room : m.context.depth + n ≤ m.context.maxDepth
  · have some_level := query.pos ((Op.subject_of_query asked).symm ▸ handler)
    have below : m.context.depth < m.context.maxDepth := by omega
    rw [decide_eq_true room] at answered
    rw [if_pos room, issue_succ, perform_able asked answered,
      dispatch_proxy ((Op.subject_normalized op).symm ▸ handler) below]
  · rw [decide_eq_false room] at answered
    rw [if_neg room, issue_succ, perform_unable asked answered, refuse_eq_complain F _ asked]

/-- At the depth limit no body of a proxy starts, and an operation that can fail does. What
it reports is that there was too much recursion, except for a call or a construct, which
reports that the proxy is not capable. It does so, too, with fewer levels left than its
query needs, and with enough levels it comes to the handler. -/
theorem limit_reported (F : Foreign σ) {m : Machine σ} (reachable : m.context.Reachable)
    {p : ObjectId} {h : Handler} (handler : m.context.handler? p = some h) {s : Shape} (op : Op s)
    (aimed : op.subject = p) :
    (m.context.depth = m.context.maxDepth →
      (∀ fuel, (history F fuel (.perform op) m).Idle) ∧
      (s.canFail = false → ∀ fuel, issue F (fuel + 1) op m = .ok (s.givenUp, m)) ∧
      (s.canFail = true → Delivers (issue F · op) m
        (Heap.maxSlots ≤ m.context.heap.slotCount) fun a m' =>
          a = s.givenUp ∧ m'.state = m.state ∧
            if op.query? = none then
              m.context.Reported .internalError "too much recursion" m'.context
            else m.context.Reported .typeError
              (m.context.valueText (.object p) ++ op.complaint) m'.context)) ∧
    (∀ q n, op.query? = some q → m.context.Query q n true → 0 < n ∧ ∀ fuel,
      issue F (fuel + n + 2) op m =
        if m.context.depth + n ≤ m.context.maxDepth then
          ((F.method h op.normalized).run (Engine.answer F (fuel + n + 1))).nested 1 m
        else Run.update (.complain op p) m) := by
  subst aimed
  refine ⟨fun full => ?_, fun q n asked query => ⟨?_, ?_⟩⟩
  · have barred : m.context.Barred op.subject "too much recursion" :=
      .full handler (Nat.le_of_eq full.symm)
    refine ⟨idle_barred barred, fun never => issue_barred_unfailing barred never, fun can => ?_⟩
    cases asked : op.query? with
    | none =>
      refine (fails_barred barred reachable.valid can asked).imp fun a m' result => ?_
      rwa [if_pos rfl]
    | some q =>
      refine (fails_barred_asked barred reachable.valid asked).imp fun a m' result => ?_
      rwa [if_neg (Option.some_ne_none q)]
  · exact query.pos ((Op.subject_of_query asked).symm ▸ handler)
  · exact issue_asked query asked handler (Context.Reachable.within reachable)

def newCallable : Update ObjectId :=
  Update.newProxy (.builtin .plain) .undefined none { callable := true }

/-- With a single level, the proxy can be called but is said not to be a constructor, and other
operations fail for want of depth when that level is taken. -/
theorem limit_one : ∃ p c, newCallable (Context.create { maxDispatchDepth := 1 }) = some (p, c) ∧
    (∀ fuel, ∃ m', issue Foreign.idle (fuel + 3) (.call p .undefined []) ⟨c, ()⟩ =
      .ok (.ok .undefined, m')) ∧
    (∀ fuel, issue Foreign.idle (fuel + 4) (.construct p [] .undefined) ⟨c, ()⟩ =
      Run.update (.complain (.construct p [] .undefined) p) ⟨c, ()⟩) := by
  obtain ⟨⟨p, c⟩, made⟩ :
    ∃ r, newCallable (Context.create { maxDispatchDepth := 1 }) = some r := ⟨_, rfl⟩
  have proxied : Update.newProxy (.builtin .plain) .undefined none { callable := true }
      (Context.create { maxDispatchDepth := 1 }) = some (p, c) := made
  have reachable : c.Reachable := ⟨_, (Update.tightens_alloc _ _ proxied).edits.reaches⟩
  have handler : c.handler? p = some (.builtin .plain) := by
    cases made
    rfl
  have callable : c.Query (.isCallable p) 1 true := by
    have query := Context.Query.callable handler rfl rfl
    rwa [show c.storedCallable p = true by cases made; rfl] at query
  have called := ((limit_reported Foreign.idle (m := ⟨c, ()⟩) reachable handler
    (.call p .undefined []) rfl).2 _ 1 rfl callable).2
  have constructed := ((limit_reported Foreign.idle (m := ⟨c, ()⟩) reachable handler
    (.construct p [] .undefined) rfl).2 _ 2 rfl (.constructor handler rfl rfl callable)).2
  refine ⟨p, c, made, fun fuel => ?_, fun fuel => ?_⟩
  · rw [called fuel]
    cases made
    exact ⟨_, rfl⟩
  · rw [constructed fuel]
    cases made
    rfl

theorem limit_misreported : ∃ p c, newCallable (Context.create { maxDispatchDepth := 0 }) =
      some (p, c) ∧ c.handler? p = some (.builtin .plain) ∧ c.storedCallable p = true ∧
    c.depth = c.maxDepth ∧ ∃ m', (∀ fuel,
      issue Foreign.idle (fuel + 2) (.call p .undefined []) ⟨c, ()⟩ = .ok (.error {}, m')) ∧
      m'.context.Reports .typeError "[object Proxy] is not a function" ∧
      ¬ m'.context.Reports .internalError "too much recursion" := by
  refine ⟨_, _, rfl, rfl, rfl, rfl, _, fun fuel => rfl, ⟨_, rfl, rfl⟩, fun recursion => ?_⟩
  obtain ⟨⟨⟩, -⟩ := Context.Reports.unique recursion ⟨_, rfl, rfl⟩

end Engine

end ProxyEngine
