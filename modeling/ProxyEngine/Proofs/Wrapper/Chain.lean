import ProxyEngine.Proofs.Operation.Restatement

/-! Wrappers are transparent at any nesting. An operation on the outermost of `n`
wrappers is the same operation on their target, `n` dispatch levels further
down. The induction is on the chain; calls and constructs send their capability
query through the whole rest of the chain at every level, so the query is
settled first. -/

namespace ProxyEngine

variable {σ : Type} {s : Shape}

inductive Handler.Transparent : Handler → Prop
  | builtin : Transparent (.builtin .wrapper)
  | untrapped (id : TableId) (extra : Nat) : Transparent (.traps ⟨id, []⟩ extra .wrapper)

theorem Handler.Transparent.method {h : Handler} (transparent : h.Transparent) (F : Foreign σ)
    (op : Op s) : F.method h op = Wrapper.method op := by
  cases transparent <;> rfl

namespace Context

/-- Wrappers `ws`, the outermost first, lead from `o` through private slots to the live
object `t`, which is not a proxy. -/
inductive Chain (c : Context) : (o : ObjectId) → (ws : List ObjectId) → (t : ObjectId) → Prop
  | target {t : ObjectId} {x : Object} : c.get? t = some x → x.proxy? = none → Chain c t [] t
  | wrap {w o t : ObjectId} {h : Handler} {ws : List ObjectId} : c.handler? w = some h →
      h.Transparent → c.target? w = some o → Chain c o ws t → Chain c w (w :: ws) t

def capability (c : Context) (t : ObjectId) : Op .capability → Bool
  | .isCallable _ => (c.function? t).isSome
  | .isConstructor _ => (c.function? t).any (·.2.2)

/-- A call suits functions only, a construct constructors only, the rest any object. -/
def suits (c : Context) (t : ObjectId) (op : Op s) : Bool :=
  op.query?.all (c.capability t)

variable {c : Context} {o t : ObjectId} {ws : List ObjectId}

theorem Chain.start (chain : c.Chain o ws t) : o = t ∨ o ∈ ws := by
  cases chain with
  | target => exact .inl rfl
  | wrap => exact .inr (.head _)

theorem Chain.deeper (chain : c.Chain o ws t) (d : Nat) :
    Chain { c with depth := d } o ws t := by
  induction chain with
  | target found other => exact .target found other
  | wrap handler transparent next _ ih => exact .wrap handler transparent next ih

theorem Chain.ends (chain : c.Chain o ws t) : c.Chain t [] t := by
  induction chain with
  | target found other => exact .target found other
  | wrap _ _ _ _ ih => exact ih

theorem suits_redirect (c : Context) (o t : ObjectId) (op : Op s) :
    c.suits t (op.redirect o) = c.suits t op := by
  cases op <;> rfl

theorem suits_retarget (c : Context) (ws : List ObjectId) (t : ObjectId) (op : Op s) :
    c.suits t (op.retarget ws t) = c.suits t op := by
  cases op <;> rfl

theorem suits_normalized (c : Context) (t : ObjectId) (op : Op s) :
    c.suits t op.normalized = c.suits t op := by
  cases op <;> rfl

theorem Chain.unwrapAtMost (chain : c.Chain o ws t) {budget : Nat} (enough : ws.length ≤ budget) :
    c.unwrapAtMost budget o = t := by
  induction chain generalizing budget with
  | @target t x found other =>
    have plain : c.isWrapper t = false := by
      simp [isWrapper, handler?, proxy?, found, other]
    cases budget <;> simp [Context.unwrapAtMost, plain]
  | @wrap w o t h ws handler transparent next _ ih =>
    have wrapper : c.isWrapper w = true := by
      cases transparent <;> simp [isWrapper, handler, Handler.isWrapper, Handler.base]
    cases budget with
    | zero => simp at enough
    | succ budget =>
      rw [Context.unwrapAtMost, if_pos wrapper, next]
      exact ih (Nat.le_of_succ_le_succ enough)

end Context

namespace Engine

open Context

variable {F : Foreign σ} {answer : Answerer σ} {m : Machine σ} {o t : ObjectId}
  {ws : List ObjectId}

theorem wrapper_method (op : Op s) (next : m.context.target? op.subject = some o) :
    (Wrapper.method op).run answer m = answer (.perform (op.redirect o)) m := by
  have asked : (Program.context : Program σ Context).run answer = Run.context := rfl
  rw [Wrapper.method, Program.run_bind, asked, Run.bind_context, next]
  cases ran : answer (.perform (op.redirect o)) m with
  | ok p => exact Run.bind_of_ok ran
  | error why => exact Run.bind_of_error ran

theorem dispatch_wrapper {fuel : Nat} (op : Op s) {h : Handler}
    (handler : m.context.handler? op.subject = some h) (transparent : h.Transparent)
    (next : m.context.target? op.subject = some o) (room : m.context.depth < m.context.maxDepth) :
    dispatch F (Engine.answer F fuel) op m = (issue F fuel (op.redirect o)).nested 1 m := by
  rw [dispatch_proxy handler room, transparent.method F op]
  exact Run.nested_congr (wrapper_method op next)

theorem room_deeper {w : ObjectId}
    (room : m.context.depth + (w :: ws).length ≤ m.context.maxDepth) :
    m.context.depth < m.context.maxDepth ∧
      (m.deeper 1).context.depth + ws.length ≤ (m.deeper 1).context.maxDepth := by
  simp only [List.length_cons] at room
  have below : m.context.depth + 1 + ws.length ≤ m.context.maxDepth := by omega
  exact ⟨by omega, below⟩

theorem capability_through (F : Foreign σ) (chain : m.context.Chain o ws t)
    (room : m.context.depth + ws.length ≤ m.context.maxDepth) (fuel : Nat) {q : Op .capability}
    (aimed : q.subject = o) :
    issue F fuel q m =
      if ws.length < fuel then .ok (m.context.capability t q, m) else .error .outOfFuel := by
  induction ws generalizing o m fuel q with
  | nil =>
    obtain ⟨found, other⟩ | _ := chain
    subst aimed
    cases fuel with
    | zero => rfl
    | succ fuel =>
      rw [issue_unasked (Op.query?_capability q), dispatch_ordinary found other]
      cases q <;> rfl
  | cons w ws ih =>
    obtain _ | ⟨handler, transparent, next, rest⟩ := chain
    subst aimed
    cases fuel with
    | zero => rfl
    | succ fuel =>
      obtain ⟨below, room⟩ := room_deeper room
      have asked := ih (rest.deeper (m.context.depth + 1)) room fuel (Op.subject_redirect _ q)
      rw [issue_unasked (Op.query?_capability q), dispatch_wrapper q handler transparent next below,
        List.length_cons]
      by_cases enough : ws.length < fuel
      · rw [if_pos enough] at asked
        rw [if_pos (Nat.succ_lt_succ enough), Run.nested_of_ok asked, Machine.shallower_deeper]
        cases q <;> rfl
      · rw [if_neg enough] at asked
        rw [if_neg (mt Nat.lt_of_succ_lt_succ enough), Run.nested_of_error asked]

theorem issue_starved (chain : m.context.Chain o ws t)
    (room : m.context.depth + ws.length ≤ m.context.maxDepth) {op : Op s} {q : Op .capability}
    (asked : op.query? = some q) (aimed : op.subject = o) {fuel : Nat}
    (short : fuel ≤ ws.length + 1) : issue F fuel op m = .error .outOfFuel := by
  cases fuel with
  | zero => rfl
  | succ fuel =>
    refine perform_stopped asked ?_
    have answered := capability_through F chain room fuel ((Op.subject_of_query asked).trans aimed)
    rwa [if_neg (by omega)] at answered

theorem issue_suited (chain : m.context.Chain o ws t)
    (room : m.context.depth + ws.length ≤ m.context.maxDepth) {op : Op s} (aimed : op.subject = o)
    (suits : m.context.suits t op = true) {fuel : Nat}
    (enough : op.query? = none ∨ ws.length < fuel) :
    issue F (fuel + 1) op m = dispatch F (Engine.answer F fuel) op.normalized m := by
  cases asked : op.query? with
  | none => rw [issue_unasked asked, Op.normalized_of_unasked asked]
  | some q =>
    have long : ws.length < fuel := by simpa [asked] using enough
    have answered := capability_through F chain room fuel ((Op.subject_of_query asked).trans aimed)
    rw [if_pos long, show m.context.capability t q = true by
      simpa [Context.suits, asked] using suits] at answered
    exact perform_able asked answered

theorem issue_refused (chain : m.context.Chain o ws t)
    (room : m.context.depth + ws.length ≤ m.context.maxDepth) {op : Op s} (aimed : op.subject = o)
    (unsuited : m.context.suits t op = false) {fuel : Nat} (enough : ws.length < fuel) :
    issue F (fuel + 1) op m = refuse op (Engine.answer F fuel) m := by
  cases asked : op.query? with
  | none => simp [Context.suits, asked] at unsuited
  | some q =>
    have answered := capability_through F chain room fuel ((Op.subject_of_query asked).trans aimed)
    rw [if_pos enough, show m.context.capability t q = false by
      simpa [Context.suits, asked] using unsuited] at answered
    exact perform_unable asked answered

/-- What is suited to the target comes through the chain as it is, for any amount of fuel. -/
theorem issue_through (F : Foreign σ) (chain : m.context.Chain o ws t)
    (room : m.context.depth + ws.length ≤ m.context.maxDepth) (fuel : Nat) {op : Op s}
    (aimed : op.subject = o) (suits : m.context.suits t op = true) :
    issue F (fuel + ws.length) op m =
      (issue F fuel (op.retarget ws t)).nested ws.length m := by
  induction ws generalizing o m op with
  | nil =>
    obtain ⟨found, other⟩ | _ := chain
    subst aimed
    rw [Op.retarget_nil, List.length_nil, Run.nested_zero]
    exact congrFun (issue_normalized F fuel op).symm m
  | cons w ws ih =>
    by_cases starved : op.query? ≠ none ∧ fuel ≤ 1
    · obtain ⟨q, asked⟩ := Option.ne_none_iff_exists'.1 starved.1
      rw [issue_starved chain room asked aimed (by simp only [List.length_cons]; omega)]
      have same : (op.retarget (w :: ws) t).query? = some (q.redirect t) := by simp [asked]
      exact (Run.nested_of_error (issue_starved (m := m.deeper (w :: ws).length)
        (chain.ends.deeper _) room same (Op.subject_retarget _ _ op) starved.2)).symm
    · have enough : op.query? = none ∨ (w :: ws).length < fuel + ws.length := by
        rw [List.length_cons]
        by_cases unasked : op.query? = none
        · exact .inl unasked
        · exact .inr (by have := mt (And.intro unasked) starved; omega)
      have dispatched := issue_suited (F := F) chain room aimed suits enough
      obtain _ | ⟨handler, transparent, next, rest⟩ := chain
      subst aimed
      obtain ⟨below, room⟩ := room_deeper room
      have suits (p : ObjectId) : m.context.suits t (op.normalized.redirect p) = true :=
        (suits_redirect _ _ t _).trans ((suits_normalized _ t op).trans suits)
      have through := ih (rest.deeper (m.context.depth + 1)) room
        (Op.subject_redirect _ op.normalized) (suits _)
      rw [List.length_cons, ← Nat.add_assoc, dispatched,
        dispatch_wrapper op.normalized (by simpa using handler) transparent (by simpa using next)
          below, Run.nested_congr through, Run.nested_nested, Op.retarget_cons rest.start,
        Nat.add_comm 1]

/-- What is not suited to the target is refused by the outermost object, in its name. -/
theorem refused_through (F : Foreign σ) (chain : m.context.Chain o ws t)
    (room : m.context.depth + ws.length ≤ m.context.maxDepth) {op : Op s} (aimed : op.subject = o)
    (unsuited : m.context.suits t op = false) (fuel : Nat) :
    issue F (fuel + 2 + ws.length) op m = Run.update (.complain op o) m ∧
      (issue F (fuel + 2) (op.retarget ws t)).nested ws.length m =
        Run.update (.complain op t) m := by
  obtain ⟨q, asked⟩ : ∃ q, op.query? = some q := by
    cases asked : op.query? with
    | none => simp [Context.suits, asked] at unsuited
    | some q => exact ⟨q, rfl⟩
  constructor
  · have refused := issue_refused (F := F) chain room aimed unsuited
      (show ws.length < fuel + ws.length + 1 by omega)
    rw [show fuel + 2 + ws.length = fuel + ws.length + 1 + 1 by omega, refused,
      refuse_eq_complain F _ asked, aimed]
  · have asked' : (op.retarget ws t).query? = some (q.redirect t) := by simp [asked]
    have unsuited' : (m.deeper ws.length).context.suits t (op.retarget ws t) = false :=
      (suits_retarget m.context ws t op).trans unsuited
    have same : Update.complain (op.retarget ws t) (op.retarget ws t).subject = .complain op t := by
      rw [Op.subject_retarget, Update.complain, Op.complaint_retarget]
      rfl
    have refused := issue_refused (F := F) (m := m.deeper ws.length) (chain.ends.deeper _) room
      (Op.subject_retarget ws t op) unsuited' (Nat.succ_pos fuel)
    rw [refuse_eq_complain F _ asked', same] at refused
    exact (Run.nested_congr refused).trans
      (congrFun (Run.nested_update ws.length (Update.level_complain op t)) m)

end Engine

end ProxyEngine
