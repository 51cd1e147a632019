import ProxyEngine.Proofs.Context.Rewriting
import ProxyEngine.Proofs.Engine.Termination

/-! Operations that no method answers: those on a dead handle, and those on a proxy when no
dispatch level is left. Both are given up in the same way, whatever the handler and the
embedder's code are. No body starts; at most an error is reported. -/

namespace ProxyEngine

def Event.isStart : Event → Bool
  | started _ => true
  | _ => false

/-- No body starts, the built-in ones included. -/
def History.Idle (t : History) : Prop :=
  ∀ μ ∈ t, μ.event.isStart = false

@[simp] theorem History.idle_nil : Idle [] :=
  fun _ => (nomatch ·)

@[simp] theorem History.idle_cons {μ : Moment} {t : History} :
    Idle (μ :: t) ↔ μ.event.isStart = false ∧ Idle t :=
  List.forall_mem_cons

@[simp] theorem History.idle_append {t t' : History} : Idle (t ++ t') ↔ Idle t ∧ Idle t' :=
  List.forall_mem_append

/-- Why no method answers for `o`. -/
inductive Context.Barred (c : Context) (o : ObjectId) : String → Prop
  | dead : c.get? o = none → Barred c o "can't access dead object"
  | full {h : Handler} : c.handler? o = some h → c.maxDepth ≤ c.depth →
      Barred c o "too much recursion"

variable {σ α : Type} {s : Shape}

theorem Context.valueText_of_object {c : Context} {o : ObjectId} {v : Value}
    (text : v.asString? = none) (symbol : v.asSymbol? = none) (object : v.asObject? = some o) :
    c.valueText v = "[object " ++ (c.storedClassName o).getD "dead" ++ "]" := by
  rw [valueText, text, symbol, object]

theorem Context.valueText_object (c : Context) (o : ObjectId) :
    c.valueText (.object o) = "[object " ++ (c.storedClassName o).getD "dead" ++ "]" :=
  valueText_of_object (Value.asString?_object o) (Value.asSymbol?_object o)
    (Value.asObject?_object o)

namespace Engine

variable {F : Foreign σ} {answer : Answerer σ} {asked : Request → Machine σ → History}
  {m : Machine σ} {op : Op s} {why : String}

theorem idle_andThen {t : History} {ran : Except Stop (α × Machine σ)}
    {rest : α → Machine σ → History} (first : t.Idle)
    (later : ∀ a m', ran = .ok (a, m') → (rest a m').Idle) : (t.andThen ran rest).Idle := by
  cases ran with
  | error why =>
    rw [History.andThen_error]
    exact first
  | ok result =>
    rw [History.andThen_ok, History.idle_append]
    exact ⟨first, later _ _ rfl⟩

theorem idle_request (F : Foreign σ) (fuel : Nat) {r : Request} {m : Machine σ}
    (inner : ∀ fuel', fuel = fuel' + 1 →
      (stepHistory F (Engine.answer F fuel') (history F fuel') r m).Idle) :
    (history F fuel r m).Idle := by
  have ends {ran : Except Stop (r.Response × Machine σ)} (a : r.Response) (m' : Machine σ)
      (_ : ran = .ok (a, m')) : History.Idle [m'.moment (.answered r)] :=
    History.idle_cons.2 ⟨rfl, History.idle_nil⟩
  cases fuel with
  | zero => exact History.idle_cons.2 ⟨rfl, idle_andThen History.idle_nil ends⟩
  | succ fuel =>
    exact History.idle_cons.2 ⟨rfl, idle_andThen (inner fuel rfl) ends⟩

theorem idle_actions (fuel : Nat) {p : Program σ α} (only : p.Only fun r => ∃ a, r = .act a)
    (m : Machine σ) : (p.history (Engine.answer F fuel) (history F fuel) m).Idle := by
  induction only generalizing m with
  | done a => exact History.idle_nil
  | look _ ih => exact ih m.context m.state m
  | store _ ih => exact ih _
  | ask action _ ih =>
    obtain ⟨a, rfl⟩ := action
    exact idle_andThen (idle_request F fuel fun _ _ => History.idle_nil) fun x m' _ => ih x m'

theorem incapable?_asked {q : Op .capability} (asked : op.query? = some q) :
    (incapable? op : Program σ _) =
      .ask (.perform q) fun (able : Bool) => if able then .done none else .look fun c _ =>
        some <$> Program.giveUp s .typeError
          (c.valueText (.object op.subject) ++ op.complaint) := by
  cases op <;> cases asked <;> exact Program.ask_congr fun able => by cases able <;> rfl

theorem actions_giveUp (s : Shape) (kind : ErrorKind) (message : String) :
    (Program.giveUp s kind message : Program σ _).Only fun r => ∃ a, r = .act a := by
  unfold Program.giveUp
  split
  · exact .ask ⟨_, rfl⟩ fun _ => .done _
  · exact .done _

section

variable (barred : m.context.Barred op.subject why)

include barred

theorem dispatch_barred : dispatch F answer op m =
    (Program.giveUp s .internalError why).run answer m := by
  cases barred with
  | dead dead => exact dispatch_dead dead
  | full handler full => exact dispatch_full handler (Nat.not_lt.2 full)

theorem dispatchHistory_barred : dispatchHistory F answer asked op m =
    (Program.giveUp s .internalError why).history answer asked m := by
  unfold dispatchHistory
  cases barred with
  | dead dead => rw [dead]
  | full handler full =>
    obtain ⟨p, proxy, rfl⟩ := Option.map_eq_some_iff.1 handler
    obtain ⟨x, found, kind⟩ := Option.bind_eq_some_iff.1 proxy
    rw [found]
    dsimp only
    rw [kind]
    exact if_neg (Nat.not_lt.2 full)

theorem issue_barred_unfailing (never : s.canFail = false) (fuel : Nat) :
    issue F (fuel + 1) op m = .ok (s.givenUp, m) :=
  issue_of_giveUp never (dispatch_barred barred)

theorem issue_barred (can : s.canFail = true) (unasked : op.query? = none) (fuel : Nat) :
    issue F (fuel + 2) op m =
      Run.update (do Update.report .internalError why; return s.givenUp) m := by
  rw [issue_unasked unasked, dispatch_barred barred, run_giveUp F fuel can]

theorem issue_barred_asked {q : Op .capability} (asked : op.query? = some q) (fuel : Nat) :
    issue F (fuel + 2) op m = Run.update (.complain op op.subject) m := by
  have unable : issue F (fuel + 1) q m = .ok (false, m) :=
    issue_barred_unfailing (Op.subject_of_query asked ▸ barred) rfl fuel
  rw [issue_succ, perform_unable asked unable, refuse_eq_complain F fuel asked]

theorem idle_unasked (unasked : op.query? = none) (fuel : Nat) :
    (history F fuel (.perform op) m).Idle := by
  refine idle_request F fuel fun fuel _ => ?_
  show (performHistory F _ _ op m).Idle
  rw [performHistory_unasked _ _ _ unasked, dispatchHistory_barred barred]
  exact idle_actions fuel (actions_giveUp ..) m

theorem idle_barred (fuel : Nat) : (history F fuel (.perform op) m).Idle := by
  cases asked : op.query? with
  | none => exact idle_unasked barred asked fuel
  | some q =>
    have barred' : m.context.Barred q.subject why := Op.subject_of_query asked ▸ barred
    refine idle_request F fuel fun fuel _ => ?_
    -- Whatever fuel is left for it, the query is not answered with yes.
    have unable : ∀ able m', Engine.answer F fuel (.perform q) m = .ok (able, m') →
        able = false := by
      intro able m' answered
      cases fuel with
      | zero => cases answered
      | succ fuel =>
        have fixed := issue_barred_unfailing (F := F) barred' rfl fuel
        cases answered.symm.trans fixed
        rfl
    show (performHistory F _ _ op m).Idle
    unfold performHistory
    rw [incapable?_asked asked]
    refine idle_andThen (idle_andThen (idle_unasked barred' (Op.query?_capability q) fuel)
      fun able m' answered => ?_) fun early m' ran => ?_
    · rw [unable able m' answered]
      exact idle_actions fuel ((actions_giveUp s .typeError _).map some) m'
    · obtain ⟨able, m₁, answered, ran⟩ := Run.bind_eq_ok.1 ran
      rw [unable able m₁ answered] at ran
      change (some <$> Program.giveUp s .typeError _ : Program σ _).run _ m₁ = _ at ran
      rw [Program.run_map, map_eq_pure_bind] at ran
      obtain ⟨a, m₂, -, ⟨⟩⟩ := Run.bind_eq_ok.1 ran
      exact History.idle_nil

end

/-! How such an operation fails. -/

theorem delivers_report {x : Nat → Run σ α} {a : α} {kind : ErrorKind} {message : String} {k : Nat}
    (valid : m.context.heap.Valid) (comes : ∀ fuel, x (fuel + k) m =
      Run.update (do Update.report kind message; return a) m) :
    Delivers x m (Heap.maxSlots ≤ m.context.heap.slotCount) fun a' m' =>
      a' = a ∧ m'.state = m.state ∧ m.context.Reported kind message m'.context := by
  suffices report : Delivers (fun _ => Run.update (do Update.report kind message; return a)) m
      (Heap.maxSlots ≤ m.context.heap.slotCount) fun a' m' =>
        a' = a ∧ m'.state = m.state ∧ m.context.Reported kind message m'.context from
    report.of_later (j := 0) comes
  refine delivers_update (fun refused => ?_) fun a' c ran => ?_
  · cases reported : Update.report kind message m.context with
    | none => exact Update.full_of_report reported
    | some result =>
      rw [Update.bind_of_some reported] at refused
      cases refused
  · obtain ⟨_, _, ran, ⟨⟩⟩ := Update.bind_eq_some.1 ran
    exact ⟨rfl, rfl, Update.reported valid ran⟩

theorem fails_barred (barred : m.context.Barred op.subject why) (valid : m.context.heap.Valid)
    (can : s.canFail = true) (unasked : op.query? = none) :
    Delivers (issue F · op) m (Heap.maxSlots ≤ m.context.heap.slotCount) fun a m' =>
      a = s.givenUp ∧ m'.state = m.state ∧
        m.context.Reported .internalError why m'.context :=
  delivers_report valid fun fuel => issue_barred barred can unasked fuel

theorem fails_barred_asked (barred : m.context.Barred op.subject why)
    (valid : m.context.heap.Valid) {q : Op .capability} (asked : op.query? = some q) :
    Delivers (issue F · op) m (Heap.maxSlots ≤ m.context.heap.slotCount) fun a m' =>
      a = s.givenUp ∧ m'.state = m.state ∧ m.context.Reported .typeError
        (m.context.valueText (.object op.subject) ++ op.complaint) m'.context :=
  delivers_report valid fun fuel => by
    rw [issue_barred_asked barred asked fuel, Update.complain, Run.update_get]

end Engine

end ProxyEngine
