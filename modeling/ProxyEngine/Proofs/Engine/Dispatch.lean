import ProxyEngine.Proofs.Engine.Nesting

/-! Running single operations. Each lemma says what an operation comes to in one
situation: on an ordinary object, on a proxy with room below the depth limit, or
given up. A call or a construct asks for the capability first. -/

namespace ProxyEngine

variable {σ : Type}

namespace Op

variable {s : Shape}

/-- The query that a call or a construct makes first. -/
def query? : Op s → Option (Op .capability)
  | call o .. => some (isCallable o)
  | construct o .. => some (isConstructor o)
  | _ => none

def complaint : Op s → String
  | call .. => " is not a function"
  | construct .. => " is not a constructor"
  | _ => ""

theorem subject_of_query {op : Op s} {q : Op .capability} (asked : op.query? = some q) :
    q.subject = op.subject := by
  cases op <;> cases asked <;> rfl

theorem canFail_of_query {op : Op s} {q : Op .capability} (asked : op.query? = some q) :
    s.canFail = true := by
  cases op <;> cases asked <;> rfl

theorem query?_of_unfailing {op : Op s} (never : s.canFail = false) : op.query? = none := by
  cases asked : op.query? with
  | none => rfl
  | some q => exact nomatch (canFail_of_query asked).symm.trans never

theorem query?_capability (q : Op .capability) : q.query? = none := by
  cases q <;> rfl

theorem normalized_of_unasked {op : Op s} (unasked : op.query? = none) : op.normalized = op := by
  cases op <;> first | rfl | cases unasked

@[simp] theorem subject_normalized (op : Op s) : op.normalized.subject = op.subject := by
  cases op <;> rfl

@[simp] theorem slot_normalized (op : Op s) : op.normalized.slot = op.slot := by
  cases op <;> rfl

end Op

section

variable {s : Shape}

theorem Context.valueText_level (c : Context) (d : Nat) (v : Value) :
    valueText { c with depth := d } v = c.valueText v := by
  unfold valueText keyText symbolDescription atomText storedClassName get?
  rfl

def Update.complain (op : Op s) (o : ObjectId) : Update s.Answer := do
  let c ← get
  report .typeError (c.valueText (.object o) ++ op.complaint)
  return s.givenUp

theorem Update.level_complain (op : Op s) (o : ObjectId) : Level (complain op o) :=
  .look (fun c d => by rw [Context.valueText_level]) fun _ =>
    (level_report _ _).bind fun _ => .pure _

end

namespace Engine

variable {F : Foreign σ} {answer : Answerer σ} {m : Machine σ} {s : Shape} {op : Op s}

/-- An operation issued to the engine. -/
def issue (F : Foreign σ) (fuel : Nat) (op : Op s) : Run σ s.Answer :=
  Engine.answer F fuel (.perform op)

theorem issue_succ (F : Foreign σ) (fuel : Nat) (op : Op s) :
    issue F (fuel + 1) op = perform F (Engine.answer F fuel) op := rfl

theorem atDepth_of_room (room : m.context.depth < m.context.maxDepth) (body : Run σ s.Answer) :
    atDepth answer s body m = body.nested 1 m := by
  have start : atDepth answer s body m =
      ((body >>= fun a => (Run.modifyContext fun c => { c with depth := c.depth - 1 }) >>=
        fun _ => pure a) : Run σ s.Answer) (m.deeper 1) := by
    unfold atDepth
    rw [Run.bind_context, if_pos room]
    rfl
  rw [start]
  cases ran : body (m.deeper 1) with
  | ok p =>
    rw [Run.bind_of_ok ran, Run.nested_of_ok ran]
    rfl
  | error why => rw [Run.bind_of_error ran, Run.nested_of_error ran]

theorem atDepth_of_full (full : ¬ m.context.depth < m.context.maxDepth)
    (body : Run σ s.Answer) : atDepth answer s body m =
      (Program.giveUp s .internalError "too much recursion").run answer m := by
  unfold atDepth
  rw [Run.bind_context, if_neg full]

theorem dispatch_dead (dead : m.context.get? op.subject = none) :
    dispatch F answer op m =
      (Program.giveUp s .internalError "can't access dead object").run answer m := by
  unfold dispatch
  rw [Run.bind_context, dead]

theorem dispatch_ordinary {x : Object} (found : m.context.get? op.subject = some x)
    (other : x.proxy? = none) : dispatch F answer op m = (Ordinary.method op).run answer m := by
  unfold dispatch
  rw [Run.bind_context, found]
  dsimp only
  rw [other]

theorem dispatch_proxy {h : Handler} (handler : m.context.handler? op.subject = some h)
    (room : m.context.depth < m.context.maxDepth) :
    dispatch F answer op m = ((F.method h op).run answer).nested 1 m := by
  obtain ⟨p, proxy, rfl⟩ := Option.map_eq_some_iff.1 handler
  obtain ⟨x, found, kind⟩ := Option.bind_eq_some_iff.1 proxy
  unfold dispatch
  rw [Run.bind_context, found]
  dsimp only
  rw [kind]
  exact atDepth_of_room room _

theorem dispatch_full {h : Handler} (handler : m.context.handler? op.subject = some h)
    (full : ¬ m.context.depth < m.context.maxDepth) : dispatch F answer op m =
      (Program.giveUp s .internalError "too much recursion").run answer m := by
  obtain ⟨p, proxy, rfl⟩ := Option.map_eq_some_iff.1 handler
  obtain ⟨x, found, kind⟩ := Option.bind_eq_some_iff.1 proxy
  unfold dispatch
  rw [Run.bind_context, found]
  dsimp only
  rw [kind]
  exact atDepth_of_full full _

theorem incapable?_unasked (unasked : op.query? = none) :
    (incapable? op : Program σ _) = .done none := by
  cases op <;> first | rfl | cases unasked

theorem perform_unasked (unasked : op.query? = none) :
    perform F answer op = dispatch F answer op := by
  unfold perform
  rw [incapable?_unasked unasked, Op.normalized_of_unasked unasked]
  rfl

theorem issue_unasked {fuel : Nat} (unasked : op.query? = none) :
    issue F (fuel + 1) op = dispatch F (Engine.answer F fuel) op :=
  perform_unasked unasked

theorem issue_of_giveUp (never : s.canFail = false) {kind : ErrorKind} {message : String}
    {fuel : Nat} (gives : dispatch F (Engine.answer F fuel) op m =
      (Program.giveUp s kind message).run (Engine.answer F fuel) m) :
    issue F (fuel + 1) op m = .ok (s.givenUp, m) := by
  rw [issue_unasked (Op.query?_of_unfailing never), gives, Program.giveUp,
    if_neg (by rw [never]; exact Bool.false_ne_true)]
  rfl

def refuse (op : Op s) (answer : Answerer σ) : Run σ s.Answer := fun m =>
  (Program.giveUp s .typeError
    (m.context.valueText (.object op.subject) ++ op.complaint)).run answer m

variable {q : Op .capability} {m₁ : Machine σ}

theorem perform_able (asked : op.query? = some q)
    (able : answer (.perform q) m = .ok (true, m₁)) :
    perform F answer op m = dispatch F answer op.normalized m₁ := by
  have early : (incapable? op).run answer m = .ok (none, m₁) := by
    cases op <;> cases asked <;> exact Run.bind_of_ok able
  unfold perform
  rw [Run.bind_of_ok early]

theorem perform_unable (asked : op.query? = some q)
    (unable : answer (.perform q) m = .ok (false, m₁)) :
    perform F answer op m = refuse op answer m₁ := by
  have early : (incapable? op).run answer m = (some <$> (Program.giveUp s .typeError
      (m₁.context.valueText (.object op.subject) ++ op.complaint)).run answer) m₁ := by
    rw [← Program.run_map]
    cases op <;> cases asked <;> exact Run.bind_of_ok unable
  unfold perform refuse
  cases ran : (Program.giveUp s .typeError
      (m₁.context.valueText (.object op.subject) ++ op.complaint)).run answer m₁ with
  | ok p =>
    rw [Run.bind_of_ok (early.trans (Run.map_of_ok ran))]
    rfl
  | error why => exact Run.bind_of_error (early.trans (Run.map_of_error ran))

theorem perform_stopped (asked : op.query? = some q) {why : Stop}
    (stopped : answer (.perform q) m = .error why) : perform F answer op m = .error why := by
  have early : (incapable? op).run answer m = .error why := by
    cases op <;> cases asked <;> exact Run.bind_of_error stopped
  unfold perform
  rw [Run.bind_of_error early]

theorem perform_normalized (F : Foreign σ) (answer : Answerer σ) (op : Op s) :
    perform F answer op.normalized = perform F answer op := by
  have again : op.normalized.normalized = op.normalized := by
    cases op with
    | construct o args newTarget =>
      by_cases object : newTarget.isObject <;> simp [Op.normalized, object]
    | _ => rfl
  have early : (incapable? op.normalized : Program σ _) = incapable? op := by
    cases op <;> rfl
  unfold perform
  rw [again, early]

theorem issue_normalized (F : Foreign σ) (fuel : Nat) (op : Op s) :
    issue F fuel op.normalized = issue F fuel op := by
  cases fuel with
  | zero => rfl
  | succ fuel => exact perform_normalized F _ op

theorem run_report (F : Foreign σ) (fuel : Nat) (kind : ErrorKind) (message : String) :
    (Program.report kind message).run (Engine.answer F (fuel + 1)) =
      Run.update (.report kind message) :=
  bind_pure _

theorem run_giveUp (F : Foreign σ) (fuel : Nat) (can : s.canFail = true) (kind : ErrorKind)
    (message : String) : (Program.giveUp s kind message).run (Engine.answer F (fuel + 1)) =
      Run.update (do Update.report kind message; return s.givenUp) := by
  unfold Program.giveUp
  rw [if_pos can, Program.run_bind, run_report, Run.update_bind]
  rfl

theorem refuse_eq_complain (F : Foreign σ) (fuel : Nat) {op : Op s} {q : Op .capability}
    (asked : op.query? = some q) :
    refuse op (Engine.answer F (fuel + 1)) = Run.update (.complain op op.subject) := by
  funext m
  unfold refuse Update.complain
  rw [run_giveUp F fuel (Op.canFail_of_query asked), Run.update_get]

end Engine

end ProxyEngine
