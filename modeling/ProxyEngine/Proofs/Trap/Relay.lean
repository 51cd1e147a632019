import ProxyEngine.Proofs.Trap.Forwarding

/-! Relaying proxies. A trap that hands its own out pointers to the flat entry point of
the same operation on another object adds nothing to the answer and takes nothing
away, so a tower of such proxies answers as the object at its foot does. -/

namespace ProxyEngine

def Slot.relayed : List Slot :=
  [.getOwnProperty, .defineProperty, .get, .set]

variable {σ : Type}

namespace Boundary

/-- What an entry point writes through: two pointers for an optional descriptor, one
pointer for anything else. -/
def Pointers : Shape → Type
  | .descriptor => DescriptorOut
  | s => Out s.Out

namespace Pointers

def into : {s : Shape} → s.Out → Pointers s
  | .descriptor, (out : Flattened Descriptor) =>
    (⟨some out.value, some out.isNone⟩ : DescriptorOut)
  | .outcome, out | .keys _, out | .ordinaryPrototype, out | .prototype, out | .flag, out
  | .value, out | .text, out | .capability, out => some out

def content? : {s : Shape} → Pointers s → Option s.Out
  | .descriptor, (out : DescriptorOut) => DescriptorOut.content? out
  | .outcome, out | .keys _, out | .ordinaryPrototype, out | .prototype, out | .flag, out
  | .value, out | .text, out | .capability, out => out

theorem content?_into {s : Shape} (out : s.Out) : (into out).content? = some out := by
  cases s <;> rfl

/-- The result of an entry point and what its pointers lead to afterwards. Only a success
is written. -/
def written : {s : Shape} → Pointers s → s.Answer → Bool × Pointers s
  | .descriptor, _, (.ok d : Fallible (Option Descriptor)) =>
    (true, into (s := .descriptor) (Flattened.ofOption d))
  | .outcome, _, (.ok outcome : Fallible Outcome) => (true, into (s := .outcome) outcome)
  | .value, _, (.ok v : Fallible Value) => (true, into (s := .value) v)
  | _, out, _ => (false, out)

end Pointers

def entry (cx : ContextRef) : {s : Shape} → Op s → Pointers s → Program σ (Bool × Pointers s)
  | _, .getOwnProperty o k, out => Boundary.getOwnProperty cx o k out
  | _, .defineProperty o k d, out => Boundary.defineProperty cx o k (some d) out
  | _, .get o r k, out => forwardGet cx o r k out
  | _, .set o k v r, out => forwardSet cx o k v r out
  | _, _, out => return (false, out)

theorem writing_null {α : Type} {cx : ContextRef} {out : Out α} {p : Program σ (Option α)}
    (null : cx = .null ∨ out = none) : writing cx out p = return (false, out) := by
  obtain rfl | rfl := null
  · rfl
  · cases cx <;> rfl

theorem writingDescriptor_null {cx : ContextRef} {out : DescriptorOut}
    {p : Program σ (Option (Option Descriptor))} (null : cx = .null ∨ out.content? = none) :
    writingDescriptor cx out p = return (false, out) := by
  rw [writingDescriptor, writing_null null]
  obtain ⟨_ | desc, _ | isNone⟩ := out <;> rfl

section

variable {s : Shape} {op : Op s} {out : Pointers s}

theorem entry_null {cx : ContextRef} (null : cx = .null ∨ out.content? = none) :
    (entry cx op out : Program σ _) = return (false, out) := by
  cases op with
  | getOwnProperty => exact writingDescriptor_null null
  | defineProperty | get | set => exact writing_null null
  | _ => rfl

theorem entry_current {content : s.Out} (there : out.content? = some content)
    (relayed : op.slot ∈ Slot.relayed) :
    (entry .current op out : Program σ _) = out.written <$> Program.perform op := by
  cases op with
  | getOwnProperty o k =>
    obtain ⟨_ | desc, _ | isNone⟩ := out <;> cases there
    refine Program.ask_congr (r := .perform (.getOwnProperty o k)) fun x => ?_
    rcases x with _ | _ | d <;> rfl
  | defineProperty o k d =>
    cases there
    refine Program.ask_congr (r := .perform (.defineProperty o k d)) fun x => ?_
    cases x <;> rfl
  | get o r k =>
    cases there
    refine Program.ask_congr (r := .perform (.get o r k)) fun x => ?_
    cases x <;> rfl
  | set o k v r =>
    cases there
    refine Program.ask_congr (r := .perform (.set o k v r)) fun x => ?_
    cases x <;> rfl
  | _ => simp [Op.slot, Slot.relayed] at relayed

theorem written_untouched {a : s.Answer} (failed : (out.written a).1 = false) :
    (out.written a).2 = out := by
  cases s <;> try rfl
  all_goals cases a <;> first | rfl | cases failed

theorem entry_untouched (cx : ContextRef) (relayed : op.slot ∈ Slot.relayed)
    (answer : Answerer σ) {m m' : Machine σ} {out' : Pointers s}
    (ran : (entry cx op out).run answer m = .ok ((false, out'), m')) : out' = out := by
  by_cases null : cx = .null ∨ out.content? = none
  · rw [entry_null null] at ran
    cases ran
    rfl
  · obtain ⟨current, there⟩ := not_or.1 null
    obtain ⟨content, there⟩ := Option.ne_none_iff_exists'.1 there
    cases cx with
    | null => exact absurd rfl current
    | current =>
      rw [entry_current there relayed, Program.run_map, map_eq_pure_bind] at ran
      obtain ⟨a, m₁, -, same⟩ := Run.bind_eq_ok.1 ran
      have same : out.written a = (false, out') := congrArg Prod.fst (Except.ok.inj same)
      rw [← written_untouched (congrArg Prod.fst same), same]

end

end Boundary

/-! Relaying traps. -/

def relayTo {s : Shape} (b : ObjectId) (op : Op s) (out : s.Out) : Program σ (Reply s) := do
  let (ok, out') ← Boundary.entry .current (op.redirect b) (.into out)
  return ⟨ok, out'.content?.getD out⟩

theorem toAnswer_written {s : Shape} {op : Op s} (relayed : op.slot ∈ Slot.relayed)
    (out : Boundary.Pointers s) (a : s.Answer) :
    Reply.toAnswer ⟨(out.written a).1, (out.written a).2.content?.getD s.initial⟩ = a := by
  cases op <;> first | (simp [Op.slot, Slot.relayed] at relayed; done) | skip
  case getOwnProperty => rcases a with _ | _ | d <;> rfl
  all_goals cases a <;> rfl

theorem relayTo_reissues {s : Shape} {op : Op s} (b : ObjectId)
    (relayed : op.slot ∈ Slot.relayed) :
    (Reply.toAnswer <$> relayTo b op s.initial : Program σ s.Answer) =
      Program.perform (op.redirect b) := by
  have entered : (Boundary.entry .current (op.redirect b) (.into s.initial) : Program σ _) = _ :=
    Boundary.entry_current (Boundary.Pointers.content?_into s.initial) (by rwa [Op.slot_redirect])
  unfold relayTo
  rw [entered, map_bind, seq_bind_eq]
  refine Eq.trans (bind_congr fun a => ?_) (bind_pure _)
  exact congrArg Program.done (toAnswer_written relayed _ a)

namespace Engine

open Context

/-- The traps of `p` in the relayed slots hand their operation to the entry point, on the
object in the private slot. Before that they may take a note of it. -/
structure Relaying (F : Foreign σ) (note : {s : Shape} → Op s → σ → σ) (c : Context)
    (p b : ObjectId) (table : TrapTable) (extra : Nat) : Prop where
  handler : c.handler? p = some (.traps table extra .plain)
  target : c.private? p = some (.object b)
  filled : ∀ slot ∈ Slot.relayed, table.has slot = true
  relays : ∀ {s : Shape} (op : Op s), op.subject = p → op.slot ∈ Slot.relayed →
    ∀ (answer : Answerer σ) m, m.context.private? p = some (.object b) →
      (F.trap table.id op s.initial).run answer m =
        (relayTo b op s.initial).run answer { m with state := note op m.state }

/-- A tower of relaying proxies, from the top, with the object at its foot. -/
inductive Tower (F : Foreign σ) (note : {s : Shape} → Op s → σ → σ) (c : Context) :
    ObjectId → List ObjectId → ObjectId → Prop
  | foot (b : ObjectId) : Tower F note c b [] b
  | next {p q b : ObjectId} {ps : List ObjectId} {table : TrapTable} {extra : Nat} :
      Relaying F note c p q table extra → Tower F note c q ps b → Tower F note c p (p :: ps) b

def noted (note : {s : Shape} → Op s → σ → σ) {s : Shape} (op : Op s) (ps : List ObjectId)
    (state : σ) : σ :=
  ps.foldl (fun state p => note (op.redirect p) state) state

section

variable {F : Foreign σ} {note : {s : Shape} → Op s → σ → σ} {c : Context} {m : Machine σ}
  {p b : ObjectId} {ps : List ObjectId} {table : TrapTable} {extra : Nat} {s : Shape} {op : Op s}

theorem Op.unasked_of_relayed (relayed : op.slot ∈ Slot.relayed) : op.query? = none := by
  cases op <;> first | rfl | simp [Op.slot, Slot.relayed] at relayed

theorem Op.handed_of_relayed (relayed : op.slot ∈ Slot.relayed) : op.handed = op := by
  cases op <;> first | rfl | simp [Op.slot, Slot.relayed] at relayed

theorem Op.redirect_subject (relayed : op.slot ∈ Slot.relayed) : op.redirect op.subject = op := by
  cases op <;> first | rfl | simp [Op.slot, Slot.relayed] at relayed

theorem Op.redirect_redirect (relayed : op.slot ∈ Slot.relayed) (p q : ObjectId) :
    (op.redirect p).redirect q = op.redirect q := by
  cases op <;> first | rfl | simp [Op.slot, Slot.relayed] at relayed

theorem issue_relayed (relaying : Relaying F note m.context p b table extra)
    (room : m.context.depth < m.context.maxDepth) (aimed : op.subject = p)
    (relayed : op.slot ∈ Slot.relayed) (fuel : Nat) :
    issue F (fuel + 1) op m =
      (issue F fuel (op.redirect b)).nested 1 { m with state := note op m.state } := by
  have trapped : (Handler.traps table extra .plain).trapped? op.slot = some table.id :=
    if_pos (relaying.filled _ relayed)
  have reissued : ((F.method (.traps table extra .plain) op).run (Engine.answer F fuel))
      (m.deeper 1) = issue F fuel (op.redirect b)
        (Machine.deeper 1 { m with state := note op m.state }) := by
    rw [F.method_of_filled trapped, Op.handed_of_relayed relayed, Program.run_map, ← run_perform,
      ← relayTo_reissues b relayed, Program.run_map]
    exact congrArg (· >>= fun p => pure (Reply.toAnswer p.1, p.2))
      (relaying.relays op aimed relayed (Engine.answer F fuel) (m.deeper 1) relaying.target)
  rw [issue_unasked (Op.unasked_of_relayed relayed), dispatch_proxy (aimed ▸ relaying.handler) room]
  exact congrArg (Except.map _) reissued

theorem Relaying.deeper (relaying : Relaying F note c p b table extra) (n : Nat) :
    Relaying F note { c with depth := n } p b table extra :=
  ⟨relaying.handler, relaying.target, relaying.filled, relaying.relays⟩

theorem Tower.deeper (tower : Tower F note c p ps b) (n : Nat) :
    Tower F note { c with depth := n } p ps b := by
  induction tower with
  | foot b => exact .foot b
  | next relaying _ ih => exact .next (relaying.deeper n) ih

theorem noted_cons (p : ObjectId) (ps : List ObjectId) (state : σ) :
    noted note op (p :: ps) state = noted note op ps (note (op.redirect p) state) := rfl

theorem noted_redirect (relayed : op.slot ∈ Slot.relayed) (q : ObjectId) :
    noted note (op.redirect q) = noted note op := by
  funext ps state
  unfold noted
  simp only [Op.redirect_redirect relayed]

theorem issue_tower (tower : Tower F note m.context p ps b)
    (room : m.context.depth + ps.length ≤ m.context.maxDepth) (aimed : op.subject = p)
    (relayed : op.slot ∈ Slot.relayed) (fuel : Nat) :
    issue F (fuel + ps.length) op m =
      (issue F fuel (op.redirect b)).nested ps.length
        { m with state := noted note op ps m.state } := by
  induction ps generalizing m p op with
  | nil =>
    cases tower
    rw [← aimed, Op.redirect_subject relayed, List.length_nil, Run.nested_zero]
    rfl
  | cons _ ps ih =>
    obtain - | ⟨relaying, rest⟩ := tower
    rename_i q table extra
    rw [List.length_cons] at room ⊢
    have relayed' : (op.redirect q).slot ∈ Slot.relayed := by rwa [Op.slot_redirect]
    rw [← Nat.add_assoc, issue_relayed relaying (by omega) aimed relayed]
    have below := ih (m := Machine.deeper 1 { m with state := note op m.state })
      (rest.deeper _) (show m.context.depth + 1 + ps.length ≤ m.context.maxDepth by omega)
      (Op.subject_redirect q op) relayed'
    rw [Op.redirect_redirect relayed, noted_redirect relayed] at below
    refine (congrArg (Except.map fun r => (r.1, r.2.shallower 1)) below).trans ?_
    rw [noted_cons, ← aimed, Op.redirect_subject relayed, Nat.add_comm ps.length,
      ← Run.nested_nested]
    rfl

end

/-- A tower of relaying proxies answers as the object at its foot does, from as many levels
further down as the tower is high: the same value, descriptor or outcome word, or a failure
with the same pending exception, and the same context. The entry points in between
write what the operation answers when it succeeds, and nothing when it fails. -/
theorem tower_lossless (F : Foreign σ) (note : {s : Shape} → Op s → σ → σ) {m : Machine σ}
    {p b : ObjectId} {ps : List ObjectId} (tower : Tower F note m.context p ps b)
    (room : m.context.depth + ps.length ≤ m.context.maxDepth) :
    (∀ {s : Shape} (op : Op s), op.subject = p → op.slot ∈ Slot.relayed → ∀ fuel,
      issue F (fuel + ps.length) op m =
        (issue F fuel (op.redirect b)).nested ps.length
          { m with state := noted note op ps m.state }) ∧
    (∀ {s : Shape} (op : Op s), op.slot ∈ Slot.relayed → ∀ out : Boundary.Pointers s,
      (∀ content, out.content? = some content →
        (Boundary.entry .current op out : Program σ _) = out.written <$> Program.perform op) ∧
      (∀ cx, cx = .null ∨ out.content? = none →
        (Boundary.entry cx op out : Program σ _) = return (false, out)) ∧
      ∀ cx (answer : Answerer σ) m₁ m₂ out',
        (Boundary.entry cx op out).run answer m₁ = .ok ((false, out'), m₂) → out' = out) ∧
    (∀ cx o k out,
      (Boundary.defineProperty cx o k none out : Program σ _) = return (false, out)) :=
  ⟨fun _ aimed relayed => issue_tower tower room aimed relayed,
    fun _ relayed _ =>
      ⟨fun _ there => Boundary.entry_current there relayed, fun _ null => Boundary.entry_null null,
        fun cx answer _ _ _ => Boundary.entry_untouched cx relayed answer⟩,
    fun _ _ _ _ => rfl⟩

end Engine

def relayPrivate {s : Shape} (op : Op s) (out : s.Out) : Program σ (Reply s) := do
  let (_, v) ← Boundary.getPrivate .current op.subject (some .undefined)
  match v.bind Value.asObject? with
  | some b => relayTo b op out
  | none => return ⟨false, out⟩

theorem run_relayPrivate {s : Shape} {op : Op s} {m : Machine σ} {v : Value} {b : ObjectId}
    (private? : m.context.private? op.subject = some v) (object : v.asObject? = some b)
    (answer : Answerer σ) (out : s.Out) :
    (relayPrivate op out).run answer m = (relayTo b op out).run answer m := by
  have found : (Program.reads fun c => c.private? op.subject).run answer m =
      .ok (some v, m) :=
    congrArg (fun v => Except.ok (v, m)) private?
  have read : (Boundary.getPrivate .current op.subject (some .undefined)).run answer m =
      .ok ((true, some v), m) := by
    unfold Boundary.getPrivate Boundary.writing
    rw [Program.run_bind]
    exact Run.bind_of_ok found
  unfold relayPrivate
  rw [Program.run_bind]
  refine (Run.bind_of_ok read).trans ?_
  simp only [Option.bind_some, object]

def relay : Foreign (List Slot) :=
  { Foreign.idle with
    trap := fun _ op out => do
      Program.setState (op.slot :: (← Program.state))
      relayPrivate op out }

def relayed : Update (ObjectId × ObjectId × ObjectId) := do
  let b ← Update.newObject none
  discard <| Update.defineStored b (.index 0) (.ofData .null {})
  let q ← Update.newProxy (.traps ⟨⟨0⟩, Slot.relayed⟩ 0 .plain) (.object b) none {}
  let p ← Update.newProxy (.traps ⟨⟨1⟩, Slot.relayed⟩ 0 .plain) (.object q) none {}
  return (p, q, b)

namespace Engine

theorem relaying_relay {c : Context} {p b : ObjectId} {id : TableId} {extra : Nat}
    (handler : c.handler? p = some (.traps ⟨id, Slot.relayed⟩ extra .plain))
    (target : c.private? p = some (.object b)) :
    Relaying relay (fun op slots => op.slot :: slots) c p b ⟨id, Slot.relayed⟩ extra := by
  refine ⟨handler, target, fun slot => List.contains_iff_mem.2, ?_⟩
  rintro s op rfl listed answer m target'
  exact run_relayPrivate (m := { m with state := op.slot :: m.state }) target'
    (Value.asObject?_object b) answer s.initial

theorem relayed_lossless : ∃ p q b c, relayed (Context.create {}) = some ((p, q, b), c) ∧
    (∀ fuel, issue relay (fuel + 2) (.getOwnProperty p (.index 0)) ⟨c, []⟩ =
      (issue relay fuel (.getOwnProperty b (.index 0))).nested 2
        ⟨c, [.getOwnProperty, .getOwnProperty]⟩) ∧
    ∃ m', issue relay 6 (.set p (.index 0) .undefined (.object b)) ⟨c, []⟩ =
      .ok (.ok (.refused .readOnly), m') := by
  obtain ⟨⟨⟨p, q, b⟩, c⟩, ran⟩ : ∃ r, relayed (Context.create {}) = some r := ⟨_, rfl⟩
  have tower : Tower relay (fun op slots => op.slot :: slots) c p [p, q] b := by
    cases ran
    exact .next (relaying_relay rfl rfl) (.next (relaying_relay rfl rfl) (.foot _))
  have room : c.depth + 2 ≤ c.maxDepth := by
    cases ran
    decide
  obtain ⟨lossless, -, -⟩ := tower_lossless relay _ (m := ⟨c, []⟩) tower room
  have read := lossless (.getOwnProperty p (.index 0)) rfl (show Slot.getOwnProperty ∈ _ by decide)
  have write := lossless (.set p (.index 0) .undefined (.object b)) rfl
    (show Slot.set ∈ _ by decide) 4
  refine ⟨p, q, b, c, ran, read, ?_⟩
  have refused : ∃ m', issue relay 4 (.set b (.index 0) .undefined (.object b))
      (Machine.deeper 2 ⟨c, [.set, .set]⟩) = .ok (.ok (.refused .readOnly), m') := by
    cases ran
    exact ⟨_, rfl⟩
  obtain ⟨m', refused⟩ := refused
  exact ⟨_, write.trans (Run.nested_of_ok refused)⟩

end Engine

end ProxyEngine
