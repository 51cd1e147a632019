import ProxyEngine.Engine
import ProxyEngine.Proofs.Context.Depth

/-! Runs at a dispatch level. A body that runs some levels further down and comes
back is `Run.nested`; nesting adds up, and an update that does not look at the
depth is the same at every level. -/

namespace ProxyEngine

variable {σ α β : Type}

namespace Machine

def deeper (n : Nat) (m : Machine σ) : Machine σ :=
  { m with context := { m.context with depth := m.context.depth + n } }

def shallower (n : Nat) (m : Machine σ) : Machine σ :=
  { m with context := { m.context with depth := m.context.depth - n } }

theorem deeper_deeper (a b : Nat) (m : Machine σ) :
    (m.deeper a).deeper b = m.deeper (a + b) := by
  simp only [deeper, Nat.add_assoc]

theorem shallower_shallower (a b : Nat) (m : Machine σ) :
    (m.shallower b).shallower a = m.shallower (a + b) := by
  simp only [shallower, Nat.sub_sub, Nat.add_comm]

@[simp] theorem shallower_deeper (n : Nat) (m : Machine σ) : (m.deeper n).shallower n = m := by
  simp [deeper, shallower]

end Machine

namespace Run

variable {m m₁ : Machine σ} {x : Run σ α}

theorem bind_of_ok {f : α → Run σ β} {a : α} (ran : x m = .ok (a, m₁)) :
    (x >>= f) m = f a m₁ := by
  show (x m >>= fun p => f p.1 p.2) = _
  rw [ran]
  rfl

theorem bind_of_error {f : α → Run σ β} {why : Stop} (ran : x m = .error why) :
    (x >>= f) m = .error why := by
  show (x m >>= fun p => f p.1 p.2) = _
  rw [ran]
  rfl

theorem bind_eq_ok {m' : Machine σ} {f : α → Run σ β} {b : β} :
    (x >>= f) m = .ok (b, m') ↔ ∃ a m₁, x m = .ok (a, m₁) ∧ f a m₁ = .ok (b, m') := by
  constructor
  · intro ran
    cases first : x m with
    | ok p => exact ⟨p.1, p.2, rfl, (bind_of_ok first).symm.trans ran⟩
    | error why =>
      rw [bind_of_error first] at ran
      cases ran
  · rintro ⟨a, m₁, first, rest⟩
    exact (bind_of_ok first).trans rest

theorem bind_context (f : Context → Run σ α) (m : Machine σ) :
    (context >>= f) m = f m.context m := rfl

theorem map_of_ok {f : α → β} {a : α} (ran : x m = .ok (a, m₁)) :
    (f <$> x) m = .ok (f a, m₁) := by
  rw [map_eq_pure_bind]
  exact bind_of_ok ran

theorem map_of_error {f : α → β} {why : Stop} (ran : x m = .error why) :
    (f <$> x) m = .error why := by
  rw [map_eq_pure_bind]
  exact bind_of_error ran

/-- The run from `n` dispatch levels further down, and back. -/
def nested (n : Nat) (x : Run σ α) : Run σ α := fun m =>
  (x (m.deeper n)).map fun p => (p.1, p.2.shallower n)

theorem nested_of_ok {n : Nat} {a : α} (ran : x (m.deeper n) = .ok (a, m₁)) :
    x.nested n m = .ok (a, m₁.shallower n) := by
  rw [nested, ran]
  rfl

theorem nested_of_error {n : Nat} {why : Stop} (ran : x (m.deeper n) = .error why) :
    x.nested n m = .error why := by
  rw [nested, ran]
  rfl

theorem nested_congr {n : Nat} {x y : Run σ α} (same : x (m.deeper n) = y (m.deeper n)) :
    x.nested n m = y.nested n m := by
  rw [nested, nested, same]

@[simp] theorem nested_zero (x : Run σ α) : x.nested 0 = x := by
  funext m
  cases ran : x m with
  | ok p => exact nested_of_ok ran
  | error why => exact nested_of_error ran

theorem nested_nested (a b : Nat) (x : Run σ α) : (x.nested b).nested a = x.nested (a + b) := by
  funext m
  cases ran : x (m.deeper (a + b)) with
  | ok p =>
    rw [← Machine.deeper_deeper] at ran
    rw [nested_of_ok (nested_of_ok ran), Machine.shallower_shallower]
    rw [Machine.deeper_deeper] at ran
    rw [nested_of_ok ran]
  | error why =>
    rw [nested_of_error ran]
    rw [← Machine.deeper_deeper] at ran
    exact nested_of_error (nested_of_error ran)

/-! Updates as runs. -/

theorem update_eq_ok {u : Update α} {a : α} {m' : Machine σ} {m : Machine σ} :
    update u m = .ok (a, m') ↔ ∃ c, u m.context = some (a, c) ∧ { m with context := c } = m' := by
  unfold update
  cases u m.context with
  | none => simp
  | some p => simp [Prod.ext_iff, and_assoc]

theorem update_bind (u : Update α) (f : α → Update β) :
    (update (u >>= f) : Run σ β) = update u >>= fun a => update (f a) := by
  funext m
  have chained : (u >>= f) m.context = (u m.context).bind fun p => f p.1 p.2 := rfl
  cases ran : u m.context with
  | none =>
    have full : (update u : Run σ α) m = .error .heapFull := by simp [update, ran]
    rw [bind_of_error full]
    simp [update, chained, ran]
  | some p =>
    rw [bind_of_ok (update_of_some ran)]
    simp [update, chained, ran]

theorem update_map (f : α → β) (u : Update α) :
    (update (f <$> u) : Run σ β) = f <$> update u := by
  rw [map_eq_pure_bind, map_eq_pure_bind, update_bind]
  rfl

theorem update_get (f : Context → Update α) (m : Machine σ) :
    update (get >>= f) m = update (f m.context) m := rfl

theorem nested_update (n : Nat) {u : Update α} (level : u.Level) :
    (update u : Run σ α).nested n = update u := by
  funext m
  have below : u (m.deeper n).context = _ := level m.context (m.context.depth + n)
  unfold nested update
  rw [below]
  cases ran : u m.context with
  | none => rfl
  | some p =>
    have depth : m.context.depth + n - n = p.2.depth := by
      rw [level.depth ran, Nat.add_sub_cancel]
    simp only [Option.map_some, Except.map, Machine.shallower, Machine.deeper, depth]

end Run

theorem Program.ask_congr {r : Request} {next next' : r.Response → Program σ α}
    (same : ∀ x, next x = next' x) : ask r next = ask r next' :=
  congrArg _ (funext same)

theorem Program.run_ask (answer : Answerer σ) (r : Request) :
    (ask r .done : Program σ r.Response).run answer = answer r :=
  bind_pure _

theorem Program.run_map (answer : Answerer σ) (f : α → β) (p : Program σ α) :
    (f <$> p).run answer = f <$> p.run answer := by
  rw [map_eq_pure_bind, map_eq_pure_bind, run_bind]
  rfl

theorem Attempt.run_context (answer : Answerer σ) (f : Context → Attempt σ α) (m : Machine σ) :
    (context >>= f).run.run answer m = (f m.context).run.run answer m := rfl

end ProxyEngine
