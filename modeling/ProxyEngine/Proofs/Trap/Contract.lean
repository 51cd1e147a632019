import ProxyEngine.Proofs.Engine.Runs
import ProxyEngine.Proofs.Operation.Restatement

/-! What a trap table over a built-in handler answers. A filled slot gets the
operation once and its reply is the answer; an empty slot leaves the operation
to the handler underneath. A vector that keys are listed to is among the out parameters,
with what is in it. Calls and constructs come after the capability query,
which is an operation of its own and may change anything, the proxy's life
included. -/

namespace ProxyEngine

namespace Shape

/-- What the out parameters say when the trap has succeeded. -/
def said : (s : Shape) → s.Out → s.Answer
  | descriptor, (out : Flattened Descriptor) =>
    (Except.ok (if out.isNone then none else some out.value) : Fallible (Option Descriptor))
  | outcome, out => (Except.ok out : Fallible Outcome)
  | keys _, out => ({ keys := out } : Listing)
  | ordinaryPrototype, (out : PrototypeOut) =>
    (Except.ok (if out.isOrdinary then .ordinary out.prototype else .notOrdinary) :
      Fallible OrdinaryPrototype)
  | prototype, out => (Except.ok out : Fallible (Option ObjectId))
  | flag, out => (Except.ok out : Fallible Bool)
  | value, out => (Except.ok out : Fallible Value)
  | text, none => ""
  | text, some (bytes : List UInt8) => Utf8.decodeLossy (Utf8.cString bytes)
  | capability, out => out

def failed : (s : Shape) → s.Out → s.Answer
  | keys _, out => ({ keys := out, failed := true } : Listing)
  | descriptor, _ | outcome, _ | ordinaryPrototype, _ | prototype, _ | flag, _ | value, _ =>
    Except.error {}
  | text, _ => ""
  | capability, _ => false

def untouched : (s : Shape) → s.Answer
  | descriptor => (Except.ok none : Fallible (Option Descriptor))
  | outcome => (Except.ok .ok : Fallible Outcome)
  | keys listed => ({ keys := listed } : Listing)
  | ordinaryPrototype => (Except.ok .notOrdinary : Fallible OrdinaryPrototype)
  | prototype => (Except.ok none : Fallible (Option ObjectId))
  | flag => (Except.ok false : Fallible Bool)
  | value => (Except.ok .undefined : Fallible Value)
  | text => ""
  | capability => false

theorem said_initial (s : Shape) : s.said s.initial = s.untouched := by
  cases s <;> rfl

end Shape

namespace Reply

variable {s : Shape} (out : s.Out)

theorem toAnswer_true : toAnswer ⟨true, out⟩ = s.said out := by
  cases s with
  | text => cases out <;> rfl
  | _ => rfl

theorem toAnswer_false (can : s.canFail = true) : toAnswer ⟨false, out⟩ = s.failed out := by
  cases s <;> first | rfl | cases can

theorem toAnswer_unfailing (never : s.canFail = false) (ok : Bool) :
    toAnswer ⟨ok, out⟩ = s.said out := by
  cases s with
  | text => cases out <;> rfl
  | capability => rfl
  | _ => cases never

end Reply

namespace Op

variable {s : Shape}

/-- A count of 32 bits is enough for the arguments. -/
def Fits : Op s → Prop
  | call _ _ args | construct _ args _ => args.length < 0x100000000
  | _ => True

theorem admitted_of_few {args : List Value} (few : args.length < 0x100000000) :
    admitted args = args := by
  unfold admitted
  rw [UInt32.toNat_ofNat_of_lt' few, List.take_length]

theorem Fits.handed {op : Op s} (fits : op.Fits) : op.handed = op := by
  cases op with
  | call o this args => exact congrArg (call o this) (admitted_of_few fits)
  | construct o args newTarget =>
    exact congrArg (construct o · newTarget) (admitted_of_few fits)
  | _ => rfl

theorem Fits.normalized {op : Op s} (fits : op.Fits) : op.normalized.Fits := by
  cases op <;> exact fits

end Op

namespace Engine

variable {σ : Type} {s : Shape}

/-- Results of an operation on a live proxy with traps over a built-in handler, one
constructor for each way it can end. The trap runs one level further down. -/
inductive Answers (F : Foreign σ) (answer : Answerer σ) (table : TrapTable) (base : BaseHandler)
    (op : Op s) (m : Machine σ) : Except Stop (s.Answer × Machine σ) → Prop
  | success {out : s.Out} {m' : Machine σ} : table.has op.slot = true →
      (F.trap table.id op s.initial).run answer (m.deeper 1) = .ok (⟨true, out⟩, m') →
      Answers F answer table base op m (.ok (s.said out, m'.shallower 1))
  | failure {out : s.Out} {m' : Machine σ} : table.has op.slot = true → s.canFail = true →
      (F.trap table.id op s.initial).run answer (m.deeper 1) = .ok (⟨false, out⟩, m') →
      Answers F answer table base op m (.ok (s.failed out, m'.shallower 1))
  | unfailing {ok : Bool} {out : s.Out} {m' : Machine σ} : table.has op.slot = true →
      s.canFail = false →
      (F.trap table.id op s.initial).run answer (m.deeper 1) = .ok (⟨ok, out⟩, m') →
      Answers F answer table base op m (.ok (s.said out, m'.shallower 1))
  | stopped {why : Stop} : table.has op.slot = true →
      (F.trap table.id op s.initial).run answer (m.deeper 1) = .error why →
      Answers F answer table base op m (.error why)
  | base : table.has op.slot = false →
      Answers F answer table base op m (((base.method op).run answer).nested 1 m)

/-- Results of an operation that makes the query `q` first. -/
inductive AnswersAfter (F : Foreign σ) (answer : Answerer σ) (table : TrapTable)
    (base : BaseHandler) (op : Op s) (q : Op .capability) (m : Machine σ) :
    Except Stop (s.Answer × Machine σ) → Prop
  | stopped {why : Stop} : answer (.perform q) m = .error why →
      AnswersAfter F answer table base op q m (.error why)
  | unable {m₁ : Machine σ} : answer (.perform q) m = .ok (false, m₁) →
      AnswersAfter F answer table base op q m (Run.update (.complain op op.subject) m₁)
  | dead {m₁ : Machine σ} : answer (.perform q) m = .ok (true, m₁) →
      m₁.context.isLive op.subject = false →
      AnswersAfter F answer table base op q m
        (Run.update (do Update.report .internalError "can't access dead object"; return s.givenUp)
          m₁)
  | able {m₁ : Machine σ} {op' : Op s} {r : Except Stop (s.Answer × Machine σ)} :
      answer (.perform q) m = .ok (true, m₁) → m₁.context.isLive op.subject = true →
      op.Restates [] op.subject op' → Answers F answer table base op' m₁ r →
      AnswersAfter F answer table base op q m r

variable {F : Foreign σ} {answer : Answerer σ} {table : TrapTable} {extra : Nat}
  {base : BaseHandler} {op : Op s} {m : Machine σ}

theorem dispatch_answers (fits : table.has op.slot = true → op.Fits)
    (handler : m.context.handler? op.subject = some (.traps table extra base))
    (room : m.context.depth < m.context.maxDepth) :
    Answers F answer table base op m (dispatch F answer op m) := by
  rw [dispatch_proxy handler room]
  cases filled : table.has op.slot with
  | false =>
    have none : (Handler.traps table extra base).trapped? op.slot = none := by
      simp [Handler.trapped?, filled]
    rw [Foreign.method_of_empty F none]
    exact .base filled
  | true =>
    have some : (Handler.traps table extra base).trapped? op.slot = some table.id := by
      simp [Handler.trapped?, filled]
    rw [Foreign.method_of_filled F some, (fits filled).handed, Program.run_map]
    cases ran : (F.trap table.id op s.initial).run answer (m.deeper 1) with
    | error why =>
      rw [Run.nested_of_error (Run.map_of_error ran)]
      exact .stopped filled ran
    | ok p =>
      obtain ⟨⟨ok, out⟩, m'⟩ := p
      rw [Run.nested_of_ok (Run.map_of_ok ran)]
      cases can : s.canFail with
      | false =>
        rw [Reply.toAnswer_unfailing out can]
        exact .unfailing filled can ran
      | true =>
        cases ok with
        | true =>
          rw [Reply.toAnswer_true]
          exact .success filled ran
        | false =>
          rw [Reply.toAnswer_false out can]
          exact .failure filled can ran

theorem query_kept {fuel : Nat} {q : Op .capability} {able : Bool} {m₁ : Machine σ} {o : ObjectId}
    {h : Handler} (reachable : m.context.Reachable) (handler : m.context.handler? o = some h)
    (room : m.context.depth < m.context.maxDepth)
    (asked : Engine.answer F fuel (.perform q) m = .ok (able, m₁))
    (live : m₁.context.isLive o = true) :
    m₁.context.handler? o = some h ∧ m₁.context.depth < m₁.context.maxDepth := by
  obtain ⟨reaches, depth⟩ := answer_returns F fuel (.perform q) asked
  have ages := reachable.ages reaches
  constructor
  · rw [ages.handler?_of_live (Context.isLive_of_handler? handler) live, handler]
  · rw [depth, Context.maxDepth, ages.options]
    exact room

theorem issue_answersAfter {fuel : Nat} {q : Op .capability} (reachable : m.context.Reachable)
    (fits : table.has op.slot = true → op.Fits)
    (handler : m.context.handler? op.subject = some (.traps table extra base))
    (room : m.context.depth < m.context.maxDepth) (asked : op.query? = some q) :
    AnswersAfter F (Engine.answer F fuel) table base op q m (issue F (fuel + 1) op m) := by
  rw [issue_succ]
  cases answered : Engine.answer F fuel (.perform q) m with
  | error why =>
    rw [perform_stopped asked answered]
    exact .stopped answered
  | ok p =>
    obtain ⟨able, m₁⟩ := p
    obtain _ | fuel := fuel
    · cases answered
    cases able with
    | false =>
      rw [perform_unable asked answered, refuse_eq_complain F fuel asked]
      exact .unable answered
    | true =>
      rw [perform_able asked answered]
      cases live : m₁.context.isLive op.subject with
      | false =>
        have gone : m₁.context.get? op.normalized.subject = none := by
          simpa [Context.isLive, Heap.isLive, Context.get?] using live
        rw [dispatch_dead gone, run_giveUp F fuel (Op.canFail_of_query asked)]
        exact .dead answered live
      | true =>
        obtain ⟨handler, room⟩ := query_kept reachable handler room answered live
        refine .able answered live (op.retarget_nil ▸ Op.restates_retarget [] op.subject op) ?_
        rw [← op.slot_normalized] at fits
        have handler : m₁.context.handler? op.normalized.subject = some (.traps table extra base) := by
          simpa using handler
        exact dispatch_answers (fun filled => (fits filled).normalized) handler room

/-- The trap contract. Without a query first, a filled slot answers the operation with
just one run of its trap, and an empty slot leaves it to the built-in handler. A call or
a construct is answered in the same way once the proxy has said that it is capable and
is still alive, and a construct then has an object as its new target. Trace and finalize
have no answer that could fail. A filled slot is told the number of arguments in 32 bits, so
for it there are fewer than that. -/
theorem trap_contract (F : Foreign σ) {m : Machine σ} {o : ObjectId} {table : TrapTable}
    {extra : Nat} {base : BaseHandler} (reachable : m.context.Reachable)
    (handler : m.context.handler? o = some (.traps table extra base))
    (room : m.context.depth < m.context.maxDepth) :
    (∀ (s : Shape) (op : Op s) (fuel : Nat), op.subject = o → (table.has op.slot = true → op.Fits) →
      (op.query? = none →
        Answers F (Engine.answer F fuel) table base op m (issue F (fuel + 1) op m)) ∧
      ∀ q, op.query? = some q →
        AnswersAfter F (Engine.answer F fuel) table base op q m (issue F (fuel + 1) op m)) ∧
    (∀ state, F.edges (.traps table extra base) o state =
      if table.has .trace then
        ((F.trace table.id o state).1.filterMap Edge.target?, (F.trace table.id o state).2)
      else ([], state)) ∧
    (F.finalizer (.traps table extra base) o =
      if table.has .finalize then F.finalize table.id o else return ()) ∧
    ∀ s : Shape, s.said s.initial = s.untouched := by
  refine ⟨?_, fun state => ?_, ?_, Shape.said_initial⟩
  · rintro s op fuel rfl fits
    refine ⟨fun unasked => ?_, fun q asked => issue_answersAfter reachable fits handler room asked⟩
    rw [issue_unasked unasked]
    exact dispatch_answers fits handler room
  · unfold Foreign.edges
    cases filled : table.has .trace <;> simp [Handler.trapped?, filled]
  · unfold Foreign.finalizer
    cases filled : table.has .finalize <;> simp [Handler.trapped?, filled]

/-- Traps that write down the arguments and the new targets they are given. -/
def recorder : Foreign (List Value) :=
  { Foreign.idle with
    trap := fun {s} _ op out =>
      match s, op, out with
      | _, .construct _ _ newTarget, out =>
        .look fun _ given => .store (given ++ [newTarget]) (.done ⟨true, out⟩)
      | _, .call _ _ args, out => .look fun _ given => .store (given ++ args) (.done ⟨true, out⟩)
      | .capability, _, _ => return ⟨true, true⟩
      | _, _, out => return ⟨true, out⟩ }

def trapped (filled : List Slot) : Update ObjectId :=
  Update.newProxy (.traps ⟨⟨0⟩, filled⟩ 0 .plain) .undefined none {}

def recorded : Op .value → List Value
  | .construct _ _ newTarget => [newTarget]
  | .call _ _ args => args
  | _ => []

theorem recorder_records {op : Op .value} {m : Machine (List Value)}
    {r : Except Stop (Shape.value.Answer × Machine (List Value))}
    {answer : Answerer (List Value)} {table : TrapTable} {base : BaseHandler}
    (filled : table.has op.slot = true) (answers : Answers recorder answer table base op m r) :
    ∃ a m', r = .ok (a, m') ∧ m'.state = m.state ++ recorded op := by
  have wrote {reply : Reply .value} {m' : Machine (List Value)}
      (ran : (recorder.trap table.id op Shape.value.initial).run answer (m.deeper 1) =
        .ok (reply, m')) : reply.ok = true ∧ m'.state = m.state ++ recorded op := by
    cases op <;> cases ran <;> exact ⟨rfl, by simp [recorded, Machine.deeper]⟩
  cases answers with
  | success _ ran => exact ⟨_, _, rfl, (wrote ran).2⟩
  | failure _ _ ran => cases (wrote ran).1
  | unfailing _ can => cases can
  | stopped _ ran => cases op <;> cases ran
  | base empty =>
    have clash : true = false := filled.symm.trans empty
    cases clash

/-- A filled slot that has lost an operand on the way did not get the operation as it was
issued. -/
theorem not_answers_of_lost {op : Op .value} {m m' : Machine (List Value)} {a : Shape.value.Answer}
    {r : Except Stop (Shape.value.Answer × Machine (List Value))}
    {answer : Answerer (List Value)} {table : TrapTable} {base : BaseHandler}
    (filled : table.has op.slot = true) (ran : r = .ok (a, m'))
    (lost : m'.state ≠ m.state ++ recorded op) :
    ¬ Answers recorder answer table base op m r := by
  intro answers
  obtain ⟨_, _, ran', given⟩ := recorder_records filled answers
  cases ran.symm.trans ran'
  exact lost given

def tooMany : List Value :=
  List.replicate 0x100000000 .undefined

theorem admitted_tooMany : Op.admitted tooMany = [] := by
  rw [Op.admitted, tooMany, List.length_replicate]
  rfl

/-- The three ways in which a filled slot does not get the operation as it was issued: an
undefined new target has become the proxy, a proxy that is no constructor is not asked at
all, and more arguments than can be counted are lost. -/
theorem filled_not_as_issued :
    (∃ p c, trapped [.construct, .isConstructor] (Context.create {}) = some (p, c) ∧
      Engine.answer recorder 1 (.perform (.isConstructor p)) ⟨c, []⟩ =
        .ok ((true : Bool), ⟨c, []⟩) ∧
      issue recorder 2 (.construct p [] .undefined) ⟨c, []⟩ =
        .ok (.ok .undefined, ⟨c, [.object p]⟩) ∧
      ¬ Answers recorder (Engine.answer recorder 1) ⟨⟨0⟩, [.construct, .isConstructor]⟩ .plain
        (.construct p [] .undefined) ⟨c, []⟩
        (issue recorder 2 (.construct p [] .undefined) ⟨c, []⟩)) ∧
    (∃ p c, trapped [.construct] (Context.create {}) = some (p, c) ∧
      Engine.answer recorder 2 (.perform (.isConstructor p)) ⟨c, []⟩ =
        .ok ((false : Bool), ⟨c, []⟩) ∧
      ¬ Answers recorder (Engine.answer recorder 2) ⟨⟨0⟩, [.construct]⟩ .plain
        (.construct p [] .undefined) ⟨c, []⟩
        (issue recorder 3 (.construct p [] .undefined) ⟨c, []⟩)) ∧
    ∃ p c, trapped [.call, .isCallable] (Context.create {}) = some (p, c) ∧
      issue recorder 2 (.call p .undefined tooMany) ⟨c, []⟩ =
        .ok (.ok .undefined, ⟨c, []⟩) ∧
      ¬ Answers recorder (Engine.answer recorder 1) ⟨⟨0⟩, [.call, .isCallable]⟩ .plain
        (.call p .undefined tooMany) ⟨c, []⟩
        (issue recorder 2 (.call p .undefined tooMany) ⟨c, []⟩) := by
  have called (args : List Value) : ∃ p c,
      trapped [.call, .isCallable] (Context.create {}) = some (p, c) ∧
      issue recorder 2 (.call p .undefined args) ⟨c, []⟩ =
        .ok (.ok .undefined, ⟨c, Op.admitted args⟩) :=
    ⟨_, _, rfl, rfl⟩
  obtain ⟨p, c, made, ran⟩ := called tooMany
  rw [admitted_tooMany] at ran
  refine ⟨⟨_, _, rfl, rfl, rfl, not_answers_of_lost rfl rfl nofun⟩,
    ⟨_, _, rfl, rfl, not_answers_of_lost rfl rfl nofun⟩,
    p, c, made, ran, not_answers_of_lost rfl ran fun given => ?_⟩
  have length := congrArg List.length given
  rw [List.nil_append, recorded, tooMany, List.length_replicate] at length
  cases length

theorem trapped_answers :
    ∃ p c, trapped [.construct, .isConstructor] (Context.create {}) = some (p, c) ∧
      AnswersAfter recorder (Engine.answer recorder 1) ⟨⟨0⟩, [.construct, .isConstructor]⟩ .plain
        (.construct p [] .undefined) (.isConstructor p) ⟨c, []⟩
        (issue recorder 2 (.construct p [] .undefined) ⟨c, []⟩) := by
  obtain ⟨⟨p, c⟩, ran⟩ : ∃ r, trapped [.construct, .isConstructor] (Context.create {}) = some r :=
    ⟨_, rfl⟩
  have edits : (trapped [.construct, .isConstructor]).Edits := (Update.tightens_alloc _ _).edits
  have reachable : c.Reachable := ⟨{}, (edits ran).reaches⟩
  have handler : c.handler? p =
      some (.traps ⟨⟨0⟩, [.construct, .isConstructor]⟩ 0 .plain) := by
    cases ran
    rfl
  have room : c.depth < c.maxDepth := by
    cases ran
    decide
  obtain ⟨answers, -⟩ :=
    trap_contract recorder (m := ⟨c, []⟩) reachable handler room
  have fits : (Op.construct p [] .undefined).Fits := Nat.succ_pos _
  exact ⟨p, c, ran, (answers .value (.construct p [] .undefined) 1 rfl fun _ => fits).2 _ rfl⟩

end Engine

end ProxyEngine
