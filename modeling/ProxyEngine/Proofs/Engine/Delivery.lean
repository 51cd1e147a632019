import ProxyEngine.Proofs.Context.Room
import ProxyEngine.Proofs.Object.Lookup

/-! Runs that end. A run delivers when some amount of fuel is enough for it: from that
amount on it ends in one and the same way. What a run delivers is put together from what
its parts deliver, and the end of each part may be described by a postcondition. Fuel is
never at fault then; a full heap can be, and it is said when. -/

namespace ProxyEngine

variable {σ α β : Type}

namespace Engine

/-- How a run may end: with what satisfies `Q`, or, if `full`, without room on the heap. -/
def Ends (full : Prop) (Q : α → Machine σ → Prop) : Except Stop (α × Machine σ) → Prop
  | .ok (a, m) => Q a m
  | .error .heapFull => full
  | .error .outOfFuel => False

/-- From some amount of fuel on the run ends, and always in the same way. -/
def Delivers (x : Nat → Run σ α) (m : Machine σ) (full : Prop) (Q : α → Machine σ → Prop) :
    Prop :=
  ∃ ran, Ends full Q ran ∧ ∃ n, ∀ fuel, n ≤ fuel → x fuel m = ran

section

variable {x y : Nat → Run σ α} {m : Machine σ} {full full' : Prop} {Q Q' : α → Machine σ → Prop}
  {R : β → Machine σ → Prop}

theorem delivers_of_ok {a : α} {m' : Machine σ} (holds : Q a m') {k : Nat}
    (ran : ∀ fuel, x (fuel + k) m = .ok (a, m')) : Delivers x m full Q := by
  refine ⟨.ok (a, m'), holds, k, fun fuel enough => ?_⟩
  obtain ⟨spare, rfl⟩ := Nat.exists_eq_add_of_le' enough
  exact ran spare

namespace Delivers

theorem mono (delivers : Delivers x m full Q) (implies : full → full')
    (weaker : ∀ a m', Q a m' → Q' a m') : Delivers x m full' Q' := by
  obtain ⟨ran, ends, enough⟩ := delivers
  refine ⟨ran, ?_, enough⟩
  match ran, ends with
  | .ok (a, m'), ends => exact weaker a m' ends
  | .error .heapFull, ends => exact implies ends

theorem imp (delivers : Delivers x m full Q) (weaker : ∀ a m', Q a m' → Q' a m') :
    Delivers x m full Q' :=
  delivers.mono id weaker

theorem exists_ok (delivers : Delivers x m full Q) (room : ¬ full) :
    ∃ n a m', Q a m' ∧ ∀ fuel, n ≤ fuel → x fuel m = .ok (a, m') := by
  obtain ⟨ran, ends, n, enough⟩ := delivers
  match ran, ends with
  | .ok (a, m'), holds => exact ⟨n, a, m', holds, enough⟩
  | .error .heapFull, ends => exact absurd ends room

theorem of_later (delivers : Delivers x m full Q) {j k : Nat}
    (same : ∀ fuel, y (fuel + k) m = x (fuel + j) m) : Delivers y m full Q := by
  obtain ⟨ran, ends, n, enough⟩ := delivers
  refine ⟨ran, ends, n + k, fun fuel more => ?_⟩
  obtain ⟨spare, rfl⟩ := Nat.exists_eq_add_of_le more
  rw [show n + k + spare = n + spare + k by omega, same]
  exact enough _ (by omega)

theorem bind {f : Nat → α → Run σ β} (first : Delivers x m full Q)
    (rest : ∀ a m₁, Q a m₁ → Delivers (fun fuel => f fuel a) m₁ full R) :
    Delivers (fun fuel => x fuel >>= f fuel) m full R := by
  obtain ⟨ran, ends, n, enough⟩ := first
  match ran, ends with
  | .ok (a, m₁), holds =>
    obtain ⟨ran, ends, n', enough'⟩ := rest a m₁ holds
    refine ⟨ran, ends, max n n', fun fuel more => ?_⟩
    exact (Run.bind_of_ok (enough fuel (Nat.le_trans (Nat.le_max_left n n') more))).trans
      (enough' fuel (Nat.le_trans (Nat.le_max_right n n') more))
  | .error .heapFull, ends =>
    exact ⟨.error .heapFull, ends, n, fun fuel more => Run.bind_of_error (enough fuel more)⟩

theorem nested (delivers : Delivers x (m.deeper 1) full fun a m' => Q a (m'.shallower 1)) :
    Delivers (fun fuel => (x fuel).nested 1) m full Q := by
  obtain ⟨ran, ends, n, enough⟩ := delivers
  match ran, ends with
  | .ok (a, m'), holds =>
    exact ⟨.ok (a, m'.shallower 1), holds, n, fun fuel more => Run.nested_of_ok (enough fuel more)⟩
  | .error .heapFull, ends =>
    exact ⟨.error .heapFull, ends, n, fun fuel more => Run.nested_of_error (enough fuel more)⟩

end Delivers

theorem delivers_update {u : Update α} (full_of_none : u m.context = none → full)
    (holds : ∀ a c, u m.context = some (a, c) → Q a { m with context := c }) :
    Delivers (fun _ => Run.update u) m full Q := by
  cases ran : u m.context with
  | none => exact ⟨.error .heapFull, full_of_none ran, 0, fun _ _ => by simp [Run.update, ran]⟩
  | some result => exact delivers_of_ok (k := 0) (holds _ _ ran) fun _ => Run.update_of_some ran

end

/-! Programs. -/

section

variable {F : Foreign σ} {m : Machine σ} {full : Prop} {P Q : α → Machine σ → Prop}
  {R : β → Machine σ → Prop}

theorem delivers_done {a : α} (holds : Q a m) :
    Delivers (run F · (pure a : Program σ α)) m full Q :=
  delivers_of_ok (k := 0) holds fun _ => rfl

theorem delivers_bind {p : Program σ α} {f : α → Program σ β}
    (first : Delivers (run F · p) m full P)
    (rest : ∀ a m₁, P a m₁ → Delivers (run F · (f a)) m₁ full R) :
    Delivers (run F · (p >>= f)) m full R :=
  (first.bind rest).of_later (j := 0) (k := 0) fun fuel =>
    congrFun (Program.run_bind (answer F fuel) p f) m

theorem delivers_map {p : Program σ α} {f : α → β} (first : Delivers (run F · p) m full P)
    (holds : ∀ a m₁, P a m₁ → R (f a) m₁) : Delivers (run F · (f <$> p)) m full R := by
  rw [map_eq_pure_bind]
  exact delivers_bind first fun a m₁ here => delivers_done (holds a m₁ here)

theorem delivers_attempt {p : Program σ (Fallible α)} {f : α → Attempt σ β}
    {P : Fallible α → Machine σ → Prop} {R : Fallible β → Machine σ → Prop}
    (first : Delivers (run F · p) m full P)
    (failed : ∀ e m₁, P (.error e) m₁ → R (.error e) m₁)
    (rest : ∀ a m₁, P (.ok a) m₁ → Delivers (run F · (f a).run) m₁ full R) :
    Delivers (run F · (Attempt.of p >>= f).run) m full R := by
  rw [ExceptT.run_bind]
  refine delivers_bind first fun a m₁ here => ?_
  cases a with
  | error e => exact delivers_done (failed e m₁ here)
  | ok a => exact rest a m₁ here

theorem delivers_lift {p : Program σ α} {f : α → Attempt σ β}
    {R : Fallible β → Machine σ → Prop} (first : Delivers (run F · p) m full P)
    (rest : ∀ a m₁, P a m₁ → Delivers (run F · (f a).run) m₁ full R) :
    Delivers (run F · (Attempt.lift p >>= f).run) m full R := by
  rw [ExceptT.run_bind]
  refine delivers_bind (delivers_map first (R := fun a m₁ => ∃ b, a = .ok b ∧ P b m₁)
    fun a _ here => ⟨a, rfl, here⟩) ?_
  rintro _ m₁ ⟨a, rfl, here⟩
  exact rest a m₁ here

theorem delivers_context {f : Context → Attempt σ β} {R : Fallible β → Machine σ → Prop}
    (rest : Delivers (run F · (f m.context).run) m full R) :
    Delivers (run F · (Attempt.context >>= f).run) m full R :=
  rest.of_later (j := 0) (k := 0) fun fuel => Attempt.run_context (answer F fuel) f m

theorem delivers_act {a : Action} {Q : a.Response → Machine σ → Prop}
    (full_of_none : a.update m.context = none → full)
    (holds : ∀ x c, a.update m.context = some (x, c) → Q x { m with context := c }) :
    Delivers (run F · (Program.act a)) m full Q :=
  (delivers_update full_of_none holds).of_later (j := 0) (k := 1) fun fuel =>
    congrFun (run_act fuel a) m

theorem delivers_reads {f : Context → α} (holds : Q (f m.context) m) :
    Delivers (run F · (Program.reads f)) m full Q :=
  delivers_of_ok (k := 0) holds fun _ => rfl

theorem delivers_total {a : Action} (total : a.update.Total) (f : a.Response → β)
    (holds : ∀ b m', R b m') : Delivers (run F · (f <$> Program.act a)) m full R :=
  delivers_map (P := fun _ _ => True)
    (delivers_act (fun refused => absurd refused (total.ne_none _)) fun _ _ _ => trivial)
    fun _ _ _ => holds _ _

theorem delivers_question {p : Program σ (Fallible α)} {f : α → Attempt σ β}
    {R : Fallible β → Machine σ → Prop}
    (first : Delivers (run F · p) m full fun a m' => Fallible.isFailure a = false → m' = m)
    (failed : ∀ m₁, R (.error {}) m₁) (rest : ∀ a, Delivers (run F · (f a).run) m full R) :
    Delivers (run F · (Attempt.of p >>= f).run) m full R := by
  refine delivers_attempt first (fun _ m₁ _ => failed m₁) fun a m₁ unchanged => ?_
  obtain rfl := unchanged rfl
  exact rest a

theorem delivers_ask {r : Request} {Q : r.Response → Machine σ → Prop}
    (delivers : Delivers (answer F · r) m full Q) :
    Delivers (run F · (Program.ask r .done)) m full Q :=
  delivers.of_later (j := 0) (k := 0) fun _ => congrFun (bind_pure _) m

theorem delivers_perform {s : Shape} {op : Op s} {Q : s.Answer → Machine σ → Prop}
    (delivers : Delivers (issue F · op) m full Q) :
    Delivers (run F · (Program.perform op)) m full Q :=
  delivers_ask delivers

end

end Engine

namespace Context

def Reports (c : Context) (kind : ErrorKind) (message : String) : Prop :=
  ∃ e, c.pending = some (.object e) ∧ c.errorInfo? e = some (kind, message)

end Context

theorem Program.run_of_silent {p : Program σ α} (only : p.Only fun _ => False) (m : Machine σ) :
    ∃ a s, ∀ answer : Answerer σ, p.run answer m = .ok (a, { m with state := s }) := by
  induction only generalizing m with
  | done a => exact ⟨a, m.state, fun _ => rfl⟩
  | look _ ih => exact ih m.context m.state m
  | @store s next _ ih => exact ih { m with state := s }
  | ask never => exact never.elim

/-! Host functions that do not come back to the engine with operations. -/

namespace Foreign

variable {F : Foreign σ} {c c' : Context}

def Acts (F : Foreign σ) : Prop :=
  ∀ code this args, (F.function code this args).Only fun r => ∃ a, r = .act a

def Abstains (F : Foreign σ) : Prop :=
  ∀ code this args, (F.function code this args).Only fun _ => False

theorem Abstains.acts (abstains : F.Abstains) : F.Acts :=
  fun code this args => (abstains code this args).mono fun _ => False.elim

/-- There may be no room for `n` objects, or host functions may take it. -/
def Crowds (F : Foreign σ) (n : Nat) (c : Context) : Prop :=
  F.Abstains → Heap.maxSlots < c.heap.slotCount + n

theorem crowds_of_full {n : Nat} (full : Heap.maxSlots ≤ c.heap.slotCount) :
    F.Crowds (n + 1) c :=
  fun _ => by omega

theorem Crowds.mono {n n' : Nat} (crowds : F.Crowds n c)
    (more : F.Abstains → c.heap.slotCount + n ≤ c'.heap.slotCount + n') : F.Crowds n' c' :=
  fun abstains => Nat.lt_of_lt_of_le (crowds abstains) (more abstains)

end Foreign

namespace Engine

open Context

variable {F : Foreign σ} {m : Machine σ} {full : Prop}

theorem delivers_giveUp (m : Machine σ) (s : Shape) (kind : ErrorKind) (message : String) :
    Delivers (run F · (Program.giveUp s kind message)) m
      (Heap.maxSlots ≤ m.context.heap.slotCount) fun a m' => a = s.givenUp ∧
        (s.canFail = false → m' = m) ∧
        (m.context.heap.Valid → s.canFail = true → m'.context.Reports kind message) := by
  unfold Program.giveUp
  cases can : s.canFail with
  | true =>
    refine delivers_bind
      (P := fun _ m₁ => m.context.heap.Valid → m₁.context.Reports kind message) ?_
      fun _ _ reports => delivers_done ⟨rfl, (nomatch ·), fun valid _ => reports valid⟩
    exact delivers_act Update.full_of_report fun _ _ ran valid =>
      Update.errorInfo?_of_report valid ran
  | false => exact delivers_done ⟨rfl, fun _ => rfl, fun _ => (nomatch ·)⟩

theorem delivers_function (acts : F.Acts) (code : FunctionId) (this : Value) (args : List Value)
    (m : Machine σ) :
    Delivers (run F · (F.function code this args)) m (¬ F.Abstains) fun _ m' =>
      F.Abstains → m'.context = m.context := by
  by_cases abstains : F.Abstains
  · obtain ⟨a, s, ran⟩ := Program.run_of_silent (abstains code this args) m
    have same : ({ m with state := s } : Machine σ).context = m.context := rfl
    exact delivers_of_ok (k := 0) (fun _ => same) fun _ => ran _
  · have only := acts code this args
    generalize F.function code this args = p at only
    suffices ends : Delivers (run F · p) m True fun _ _ => True from
      ends.mono (fun _ => abstains) fun _ _ _ here => absurd here abstains
    induction only generalizing m with
    | done a => exact delivers_done trivial
    | look _ ih => exact ih _ _ m
    | @store s next _ ih => exact ih { m with state := s }
    | @ask r next act _ ih =>
      obtain ⟨a, rfl⟩ := act
      exact delivers_bind (p := Program.act a) (P := fun _ _ => True)
        (delivers_act (fun _ => trivial) fun _ _ _ => trivial) fun x m₁ _ => ih x m₁

theorem delivers_runFunction (acts : F.Acts) (code : FunctionId) (this : Value)
    (args : List Value) (m : Machine σ) :
    Delivers (run F · (Attempt.runFunction code this args).run) m (F.Crowds 1 m.context)
      fun a m' => Fallible.isFailure a = false → F.Abstains →
        m'.context.heap.slotCount = m.context.heap.slotCount := by
  by_cases room : m.context.depth < m.context.maxDepth
  · have body : Delivers (run F · (F.function code this args)) (m.deeper 1) (F.Crowds 1 m.context)
        fun a m' => Fallible.isFailure a = false → F.Abstains →
          (m'.shallower 1).context.heap.slotCount = m.context.heap.slotCount := by
      refine (delivers_function acts code this args (m.deeper 1)).mono
        (fun asks abstains => absurd abstains asks) fun a m' same _ abstains => ?_
      show m'.context.heap.slotCount = _
      rw [same abstains]
      rfl
    exact body.nested.of_later (j := 0) (k := 1) fun fuel =>
      (congrFun (bind_pure _) m).trans (atDepth_of_room room _)
  · have refused := delivers_giveUp (F := F) m .value .internalError "too much recursion"
    refine (refused.of_later (j := 0) (k := 1) fun fuel =>
      (congrFun (bind_pure _) m).trans (atDepth_of_full room _)).mono Foreign.crowds_of_full ?_
    rintro _ m' ⟨rfl, -⟩ ⟨⟩

end Engine

end ProxyEngine
