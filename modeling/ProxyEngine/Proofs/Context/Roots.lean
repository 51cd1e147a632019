import ProxyEngine.Proofs.Context.Provenance

/-! Registered roots. Registrations of an object are counted in a word, where the count
wraps around; an action registers it once more, drops one registration or leaves the table
of roots as it is. -/

namespace ProxyEngine

namespace Context

variable {c : Context} {o : ObjectId}

/-- How often `o` is registered as a root, by the count that is kept. -/
def registrations (c : Context) (o : ObjectId) : Nat :=
  ((c.roots.lookup o).getD 0).toNat

/-! One count is changed. -/

theorem lookup_recount (g : UInt32 → UInt32) (p : ObjectId) (rs : List (ObjectId × UInt32)) :
    (rs.map fun (r, n) => if r = p then (r, g n) else (r, n)).lookup o =
      if o = p then (rs.lookup p).map g else rs.lookup o := by
  induction rs with
  | nil => simp
  | cons e rs ih =>
    obtain ⟨r, n⟩ := e
    by_cases here : r = p
    · simp only [List.map_cons, PropertyTable.lookup_entry, ih, here, if_true]
      by_cases same : o = p <;> simp [same]
    · simp only [List.map_cons, if_neg here, PropertyTable.lookup_entry, ih, Ne.symm here]
      by_cases same : o = p
      · simp [same, Ne.symm here]
      · simp [same]

theorem keys_recount (g : UInt32 → UInt32) (p : ObjectId) (rs : List (ObjectId × UInt32)) :
    (rs.map fun (r, n) => if r = p then (r, g n) else (r, n)).map Prod.fst = rs.map Prod.fst := by
  induction rs with
  | nil => rfl
  | cons e rs ih =>
    obtain ⟨r, n⟩ := e
    rw [List.map_cons, List.map_cons, List.map_cons, ih]
    by_cases here : r = p <;> simp [here]

theorem Rooted.of_registrations (registered : 0 < c.registrations o) : c.Rooted o := by
  unfold registrations at registered
  cases counted : c.roots.lookup o with
  | none =>
    rw [counted] at registered
    cases registered
  | some n =>
    obtain ⟨before, after, parts, -⟩ := List.lookup_eq_some_iff.1 counted
    exact .root (n := n) (by simp [parts])

end Context

namespace Action

variable {a : Action} {c c' : Context} {x : a.Response} {o : ObjectId}

def addsRoot (o : ObjectId) : Action → Bool
  | addRoot p => p == o
  | _ => false

def removesRoot (o : ObjectId) : Action → Bool
  | removeRoot p => p == o
  | _ => false

theorem roots_kept (apart : ¬ a.Registers) (ran : a.update c = some (x, c')) :
    c'.roots = c.roots := by
  have blind : Context.Tolerates (·.roots = c.roots) (fun _ => True) fun _ _ => True :=
    { intrinsic := fun _ _ => ⟨trivial, trivial⟩
      alloc := fun same _ _ _ => ⟨same, fun _ => trivial⟩
      change := fun _ same _ _ _ _ => same
      pending := fun _ same _ => same
      rest := fun same _ _ roots _ => roots.trans same }
  exact (respects blind apart (fun _ _ => trivial) (fun _ _ => trivial) rfl ran).1

theorem registrations_addRoot {p : ObjectId} {u : Unit}
    (ran : Update.addRoot p c = some (u, c')) (o : ObjectId) :
    c'.registrations o = (c.registrations o + if p = o then 1 else 0) % 0x100000000 := by
  have fits : c.registrations o % 0x100000000 = c.registrations o :=
    Nat.mod_eq_of_lt ((c.roots.lookup o).getD 0).toNat_lt
  cases ran
  unfold Context.registrations at fits ⊢
  by_cases listed : (c.roots.lookup p).isSome = true
  · simp only [if_pos listed, Context.lookup_recount (· + 1)]
    by_cases same : p = o
    · obtain ⟨n, counted⟩ := Option.isSome_iff_exists.1 listed
      simp [← same, counted]
    · rw [if_neg same, Nat.add_zero, fits, if_neg (Ne.symm same)]
  · simp only [if_neg listed, List.lookup_append, PropertyTable.lookup_entry]
    by_cases same : p = o
    · rw [Option.not_isSome_iff_eq_none] at listed
      simp [← same, listed]
    · rw [if_neg same, Nat.add_zero, fits, if_neg (Ne.symm same), List.lookup_nil, Option.or_none]

theorem registrations_removeRoot {p : ObjectId} {b : Bool}
    (ran : Update.removeRoot p c = some (b, c')) (o : ObjectId) :
    c'.registrations o = c.registrations o - if p = o then 1 else 0 := by
  unfold Update.removeRoot at ran
  obtain ⟨_, _, ⟨⟩, ran⟩ := Update.bind_eq_some.1 ran
  cases counted : c.roots.lookup p with
  | none =>
    rw [counted] at ran
    cases ran
    by_cases same : p = o
    · simp [Context.registrations, ← same, counted]
    · simp [same]
  | some n =>
    rw [counted] at ran
    obtain ⟨_, _, ⟨⟩, ⟨⟩⟩ := Update.bind_eq_some.1 ran
    simp only [Context.registrations]
    by_cases more : 1 < n
    · have whole : (n - 1).toNat = n.toNat - 1 :=
        UInt32.toNat_sub_of_le _ _ (UInt32.le_of_lt more)
      rw [if_pos more, Context.lookup_recount (· - 1)]
      by_cases same : p = o
      · simp [← same, counted, whole]
      · simp [same, Ne.symm same]
    · rw [if_neg more, PropertyTable.lookup_filter]
      by_cases same : p = o
      · have few : n.toNat ≤ 1 := Nat.not_lt.1 fun big => more (UInt32.lt_iff_toNat_lt.2 big)
        simp [← same, counted, few]
      · simp [same, Ne.symm same]

theorem registrations_update (ran : a.update c = some (x, c')) (o : ObjectId) :
    c'.registrations o =
      (c.registrations o + if a.addsRoot o then 1 else 0) % 0x100000000 -
        if a.removesRoot o then 1 else 0 := by
  have fits : c.registrations o % 0x100000000 = c.registrations o :=
    Nat.mod_eq_of_lt ((c.roots.lookup o).getD 0).toNat_lt
  have kept (apart : ¬ a.Registers) : c'.registrations o = c.registrations o % 0x100000000 := by
    rw [fits, Context.registrations, roots_kept apart ran, Context.registrations]
  cases a with
  | addRoot p => simpa [addsRoot, removesRoot] using registrations_addRoot ran o
  | removeRoot p =>
    have removed : c'.registrations o = c.registrations o - if p == o then 1 else 0 := by
      simpa using registrations_removeRoot ran o
    exact removed.trans (congrArg (· - _) fits.symm)
  | _ => exact kept id

theorem rest_of_registers (registers : a.Registers) (ran : a.update c = some (x, c')) :
    c' = { c with roots := c'.roots } := by
  cases a with
  | addRoot p =>
    cases ran
    rfl
  | removeRoot p =>
    obtain ⟨_, _, ⟨⟩, ran⟩ := Update.bind_eq_some.1 ran
    cases counted : c.roots.lookup p with
    | none =>
      rw [counted] at ran
      cases ran
      rfl
    | some n =>
      rw [counted] at ran
      obtain ⟨_, _, ⟨⟩, ⟨⟩⟩ := Update.bind_eq_some.1 ran
      rfl
  | _ => cases registers

theorem root_of_update (ran : a.update c = some (x, c')) (here : o ∈ c'.roots.map Prod.fst) :
    o ∈ c.roots.map Prod.fst ∨ a.addsRoot o = true := by
  have kept (apart : ¬ a.Registers) : o ∈ c.roots.map Prod.fst := roots_kept apart ran ▸ here
  cases a with
  | addRoot p =>
    cases ran
    dsimp only at here
    split at here
    · rw [Context.keys_recount (· + 1)] at here
      exact .inl here
    · rw [List.map_append, List.mem_append] at here
      exact here.imp_right fun new => beq_iff_eq.2 (List.mem_singleton.1 new).symm
  | removeRoot p =>
    obtain ⟨_, _, ⟨⟩, ran⟩ := Update.bind_eq_some.1 ran
    left
    cases counted : c.roots.lookup p with
    | none =>
      rw [counted] at ran
      cases ran
      exact here
    | some n =>
      rw [counted] at ran
      obtain ⟨_, _, ⟨⟩, ⟨⟩⟩ := Update.bind_eq_some.1 ran
      dsimp only at here
      split at here
      · rwa [Context.keys_recount (· - 1)] at here
      · obtain ⟨e, listed, same⟩ := List.mem_map.1 here
        exact List.mem_map.2 ⟨e, List.mem_of_mem_filter listed, same⟩
  | _ => exact .inl (kept id)

end Action

end ProxyEngine
