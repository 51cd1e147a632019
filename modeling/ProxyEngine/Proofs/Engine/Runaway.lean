import ProxyEngine.Proofs.Engine.Termination

/-! Operations that run in circles. A lookup that is handed on from object to object
around a circle, and an operation that goes from wrapper to wrapper around one, enter one
dispatch level after the other until none is left. Then the operation is given up, with
an error about the depth where there is room for an error. -/

namespace ProxyEngine

variable {σ : Type} {s : Shape}

namespace Context

/-- A lookup for `k` that comes to the first object goes on at the second. -/
inductive HandsOn (c : Context) (k : PropertyKey) : ObjectId → ObjectId → Prop
  | climb {o t : ObjectId} : c.onward? o = some (some t) → c.ownDescriptor? o k = none →
      HandsOn c k o t
  | plain {o t : ObjectId} {h : Handler} : c.handler? o = some h → h.base = .plain →
      c.storedPrototype o = some t → HandsOn c k o t
  | wrapper {o t : ObjectId} {h : Handler} : c.handler? o = some h → h.base = .wrapper →
      c.target? o = some t → HandsOn c k o t

def Wraps (c : Context) (o t : ObjectId) : Prop :=
  ∃ h, c.handler? o = some h ∧ h.base = .wrapper ∧ c.target? o = some t

def Overrun (c : Context) : Prop :=
  c.Reports .internalError "too much recursion"

variable {c : Context} {k : PropertyKey} {o t q : ObjectId} {p : Option ObjectId}
  {os : List ObjectId} {last : Option ObjectId}

theorem onward?_of_handler? {h : Handler} (handler : c.handler? o = some h) :
    c.onward? o = none := by
  rw [onward?_eq_none, isProxy_eq, handler]
  exact .inr rfl

theorem HandsOn.of_onward (hands : c.HandsOn k o t) (here : c.onward? o = some p) :
    p = some t ∧ c.ownDescriptor? o k = none := by
  cases hands with
  | climb onward missing => exact ⟨Option.some.inj (here.symm.trans onward), missing⟩
  | plain handler => cases here.symm.trans (onward?_of_handler? handler)
  | wrapper handler => cases here.symm.trans (onward?_of_handler? handler)

theorem HandsOn.deeper (hands : c.HandsOn k o t) (d : Nat) :
    HandsOn { c with depth := d } k o t := by
  cases hands with
  | climb onward missing => exact .climb onward missing
  | plain handler base stored => exact .plain handler base stored
  | wrapper handler base next => exact .wrapper handler base next

/-- Some way along `R` leads from `q` into a circle. -/
def Circles (R : ObjectId → ObjectId → Prop) (q : ObjectId) : Prop :=
  ∃ o, Relation.TransGen R q o ∧ Relation.TransGen R o o

theorem Circles.next {R : ObjectId → ObjectId → Prop} (circles : Circles R q) :
    ∃ t, R q t ∧ Circles R t := by
  obtain ⟨o, leads, around⟩ := circles
  obtain ⟨t, first, rest⟩ := Relation.TransGen.head'_iff.1 leads
  exact ⟨t, first, o, Relation.TransGen.trans_right rest around, around⟩

theorem Circles.mono {R R' : ObjectId → ObjectId → Prop} (circles : Circles R q)
    (implies : ∀ o t, R o t → R' o t) : Circles R' q :=
  circles.imp fun _ both =>
    ⟨Relation.TransGen.mono implies _ _ both.1, Relation.TransGen.mono implies _ _ both.2⟩

/-- A lookup that runs in a circle climbs in vain: the chain ends at a proxy of the circle. -/
theorem Ascent.circles (ascent : c.Ascent (some q) os last)
    (circles : Circles (c.HandsOn k) q) :
    c.nearest? os k = none ∧ ∃ r, last = some r ∧ Circles (c.HandsOn k) r := by
  generalize start : some q = start at ascent
  induction ascent generalizing q with
  | null => cases start
  | stop =>
    obtain rfl := Option.some.inj start
    exact ⟨rfl, q, rfl, circles⟩
  | @next _ p last os here _ ih =>
    obtain rfl := Option.some.inj start
    obtain ⟨t, hands, circles⟩ := circles.next
    obtain ⟨rfl, missing⟩ := hands.of_onward here
    obtain ⟨further, ends⟩ := ih circles rfl
    refine ⟨?_, ends⟩
    rw [nearest?, List.findSome?_cons, missing]
    exact further

end Context

namespace Engine

open Context

variable {F : Foreign σ} {m : Machine σ} {op : Op s} {o : ObjectId} {h : Handler}

theorem delivers_proxy {Q : s.Answer → Machine σ → Prop} (docile : m.context.Docile)
    (handler : m.context.handler? op.subject = some h) (unasked : op.query? = none)
    (limit : ∀ m', (s.canFail = false → m' = m) → (s.canFail = true → m'.context.Overrun) →
      Q s.givenUp m')
    (method : m.context.depth < m.context.maxDepth →
      Delivers (run F · (h.base.method op)) (m.deeper 1)
        (Heap.maxSlots ≤ m.context.heap.slotCount) fun a m' => Q a (m'.shallower 1)) :
    Delivers (issue F · op) m (Heap.maxSlots ≤ m.context.heap.slotCount) Q := by
  by_cases room : m.context.depth < m.context.maxDepth
  · have nested := Delivers.nested (method room)
    refine nested.of_later (j := 0) (k := 1) fun fuel => ?_
    rw [issue_unasked unasked, dispatch_proxy handler room,
      F.method_of_empty (docile.passive _ h handler op.slot)]
    rfl
  · refine ((delivers_giveUp m s _ _).of_later (j := 0) (k := 1) fun fuel =>
      (congrFun (issue_unasked unasked) m).trans (dispatch_full handler room)).imp ?_
    rintro _ m' ⟨rfl, unchanged, reports⟩
    exact limit m' unchanged (reports docile.grounded.valid)

theorem delivers_plain_question (op : Op s) (a : s.Answer) (docile : m.context.Docile)
    (handler : m.context.handler? op.subject = some h) (base : h.base = .plain)
    (unasked : op.query? = none) (can : s.canFail = true)
    (answers : ∀ answer (m₁ : Machine σ), m₁.context.heap = m.context.heap →
      (Plain.method op).run answer m₁ = .ok (a, m₁)) :
    Delivers (issue F · op) m (Heap.maxSlots ≤ m.context.heap.slotCount) fun a' m' =>
      a' = a ∧ m' = m ∨ a' = s.givenUp ∧ m'.context.Overrun := by
  refine delivers_proxy docile handler unasked (fun m' _ overrun => .inr ⟨rfl, overrun can⟩)
    fun room => ?_
  rw [base]
  refine delivers_of_ok (k := 0) (.inl ⟨rfl, Machine.shallower_deeper 1 m⟩) fun fuel => ?_
  exact answers (answer F (fuel + 0)) (m.deeper 1) rfl

theorem delivers_circle (l : Lookup s) {q : ObjectId} (docile : m.context.Docile)
    (circles : Circles (m.context.HandsOn l.key) q) :
    Delivers (issue F · (l.op q)) m (Heap.maxSlots ≤ m.context.heap.slotCount) fun a m' =>
      a = s.givenUp ∧ m'.context.Overrun := by
  have can : s.canFail = true := by cases l <;> rfl
  induction level : m.levels using Nat.strong_induction_on generalizing m q with
  | _ n ih =>
    subst level
    -- The chain of ordinary objects leads to a proxy of the circle.
    obtain ⟨os, last, ascent⟩ := docile.grounded.ascends (some q)
    obtain ⟨missing, r, rfl, circles⟩ := ascent.circles circles
    have inert := ascent.last_stops rfl
    obtain ⟨steps, -, climbs⟩ := issue_ascent (F := F) l ascent
    suffices proxy : Delivers (issue F · (l.op r)) m (Heap.maxSlots ≤ m.context.heap.slotCount)
        fun a m' => a = s.givenUp ∧ m'.context.Overrun by
      refine proxy.of_later (j := 1) (k := steps + 1) fun fuel => (climbs fuel).trans ?_
      unfold Lookup.after
      rw [missing]
      exact congrFun (run_perform (fuel + 1) _) m
    obtain ⟨t, hands, circles⟩ := circles.next
    have deeper := Machine.docile_deeper docile
    have further (room : m.context.depth < m.context.maxDepth) :=
      ih _ (Machine.levels_deeper room) deeper (circles.mono fun _ _ hands => hands.deeper _) rfl
    cases hands with
    | climb onward => cases inert.symm.trans onward
    | wrapper handler base next =>
      refine delivers_proxy docile (by simpa using handler) (l.query?_op r)
        (fun m' _ overrun => ⟨rfl, overrun can⟩) fun room => ?_
      rw [base]
      refine (further room).of_later (j := 0) (k := 0) fun fuel => ?_
      have aimed : m.context.target? (l.op r).subject = some t := by simpa using next
      have same : (l.op r).redirect t = l.op t := by cases l <;> rfl
      exact same ▸ wrapper_method (m := m.deeper 1) (l.op r) aimed
    | plain handler base stored =>
      refine delivers_proxy docile (by simpa using handler) (l.query?_op r)
        (fun m' _ overrun => ⟨rfl, overrun can⟩) fun room => ?_
      rw [base]
      have own := delivers_plain_question (F := F) (m := m.deeper 1) (.getOwnProperty r l.key)
        (.ok none) deeper handler base rfl rfl fun _ _ _ => rfl
      have up := delivers_plain_question (F := F) (m := m.deeper 1) (.getPrototype r)
        (.ok (some t)) deeper handler base rfl rfl fun answer m₁ same => by
          have stored : m₁.context.storedPrototype r = some t := by
            rw [storedPrototype, get?, same]
            exact stored
          rw [← stored]
          rfl
      show Delivers (run F · (Plain.method (l.op r))) _ _ _
      rw [l.method_plain, Lookup.onPlain]
      refine delivers_bind (delivers_perform own) ?_
      rintro _ m₁ (⟨rfl, rfl⟩ | ⟨rfl, overrun⟩)
      · refine delivers_bind (delivers_perform up) ?_
        rintro _ m₂ (⟨rfl, rfl⟩ | ⟨rfl, overrun⟩)
        · exact delivers_perform (further room)
        · exact delivers_done ⟨rfl, overrun⟩
      · exact delivers_done ⟨rfl, overrun⟩

theorem delivers_wrapped_circle (docile : m.context.Docile) (unasked : op.query? = none)
    (circles : Circles m.context.Wraps op.subject) :
    Delivers (issue F · op) m (Heap.maxSlots ≤ m.context.heap.slotCount) fun a m' =>
      a = s.givenUp ∧ (s.canFail = false → m' = m) ∧
        (s.canFail = true → m'.context.Overrun) := by
  induction level : m.levels using Nat.strong_induction_on generalizing m op with
  | _ n ih =>
    subst level
    obtain ⟨t, ⟨h, handler, base, next⟩, circles⟩ := circles.next
    refine delivers_proxy docile handler unasked
      (fun m' unchanged overrun => ⟨rfl, unchanged, overrun⟩) fun room => ?_
    have unasked' : (op.redirect t).query? = none := by
      cases op <;> first | rfl | cases unasked
    have circles' : Circles (m.deeper 1).context.Wraps (op.redirect t).subject := by
      rw [Op.subject_redirect]
      exact circles
    have further := ih _ (Machine.levels_deeper room) (Machine.docile_deeper docile) unasked'
      circles' rfl
    rw [base]
    refine (further.imp ?_).of_later (j := 0) (k := 0) fun fuel =>
      wrapper_method (m := m.deeper 1) op next
    rintro _ m' ⟨rfl, unchanged, overrun⟩
    refine ⟨rfl, fun never => ?_, overrun⟩
    rw [unchanged never, Machine.shallower_deeper]

/-- Where no proxy has traps and host functions only act on the context, every operation
ends at every dispatch depth, and so does every walk for enumerable keys, wherever it has
been: with an answer, unless host functions fill the heap or it has no room for two more
objects. A lookup that runs around a circle, of prototypes or of wrappers, ends with the
error about the depth limit; any other operation that runs around a circle of wrappers
does too, or is given its fixed answer if it cannot fail. -/
theorem operations_terminate (F : Foreign σ) (acts : F.Acts) {m : Machine σ}
    (sound : m.context.Sound) (passive : ∀ o h, m.context.handler? o = some h → h.Passive) :
    (∀ {s : Shape} (op : Op s),
      Delivers (issue F · op) m (F.Crowds 2 m.context) fun _ _ => True) ∧
    (∀ o visited seen listed, Delivers (answer F · (.enumerateFrom o visited seen listed)) m
      (F.Crowds 2 m.context) fun _ _ => True) ∧
    (∀ {s : Shape} (l : Lookup s) o, Circles (m.context.HandsOn l.key) o →
      Delivers (issue F · (l.op o)) m (Heap.maxSlots ≤ m.context.heap.slotCount) fun a m' =>
        a = s.givenUp ∧ m'.context.Reports .internalError "too much recursion") ∧
    ∀ {s : Shape} (op : Op s), op.query? = none → Circles m.context.Wraps op.subject →
      Delivers (issue F · op) m (Heap.maxSlots ≤ m.context.heap.slotCount) fun a m' =>
        a = s.givenUp ∧ (s.canFail = false → m' = m) ∧
          (s.canFail = true → m'.context.Reports .internalError "too much recursion") := by
  have docile : m.context.Docile := ⟨sound.grounded, passive⟩
  have serves := serves_of_docile acts docile
  exact ⟨fun op => (serves.op op).imp fun _ _ _ => trivial, serves.walk,
    fun l o circles => delivers_circle l docile circles,
    fun op unasked circles => delivers_wrapped_circle docile unasked circles⟩

def newMaze : Program Unit (ObjectId × ObjectId) := do
  let (o, _) ← newLoop
  let w ← Program.newProxy (.builtin .wrapper) .undefined none {}
  discard <| Program.setPrivate w (.object w)
  return (o, w)

theorem maze_terminates : ∃ o w m,
    run Foreign.idle 4 newMaze ⟨Context.create {}, ()⟩ = .ok ((o, w), m) ∧
    (∃ n a m', ∀ fuel, n ≤ fuel → issue Foreign.idle fuel (.enumerate o []) m = .ok (a, m')) ∧
    (∃ n m', m'.context.Reports .internalError "too much recursion" ∧ ∀ fuel, n ≤ fuel →
      issue Foreign.idle fuel (.has o .void) m = .ok (.error {}, m')) ∧
    ∃ n, ∀ fuel, n ≤ fuel → issue Foreign.idle fuel (.className w) m = .ok ("Object", m) := by
  have made : ∃ r m, run Foreign.idle 4 newMaze ⟨Context.create {}, ()⟩ = .ok (r, m) := ⟨_, _, rfl⟩
  obtain ⟨⟨o, w⟩, m, ran⟩ := made
  have abstains : (Foreign.idle (σ := Unit)).Abstains := fun _ _ _ => .done _
  have sound := (run_sound Foreign.idle 4 newMaze (by decide +kernel)).2 _ m ran
  have passive (q : ObjectId) (h : Handler) (handler : m.context.handler? q = some h) :
      h.Passive := by
    have listed : q ∈ m.context.heap.ids := Heap.mem_ids.2 (isLive_of_handler? handler)
    have empty : ∀ q ∈ m.context.heap.ids, ∀ h ∈ m.context.handler? q, ∀ slot ∈ Slot.all,
        h.trapped? slot = none := by
      cases ran
      decide +kernel
    exact fun slot => empty q listed h handler slot (Slot.mem_all slot)
  have loop : Circles (m.context.HandsOn .void) o := by
    cases ran
    exact ⟨_, .tail (.single (.climb rfl rfl)) (.plain rfl rfl rfl),
      .tail (.single (.climb rfl rfl)) (.plain rfl rfl rfl)⟩
  have itself : Circles m.context.Wraps w := by
    cases ran
    exact ⟨_, .single ⟨_, rfl, rfl, rfl⟩, .single ⟨_, rfl, rfl, rfl⟩⟩
  have room : m.context.heap.slotCount + 2 ≤ Heap.maxSlots := by
    cases ran
    decide
  obtain ⟨ends, -, lookups, wrappers⟩ :=
    operations_terminate Foreign.idle abstains.acts sound passive
  obtain ⟨n, a, m', -, walked⟩ := (ends (.enumerate o [])).exists_ok fun crowds =>
    absurd (crowds abstains) (Nat.not_lt.2 room)
  obtain ⟨n', _, m'', ⟨rfl, overrun⟩, failed⟩ := (lookups (.has .void) o loop).exists_ok (by omega)
  obtain ⟨k, _, _, ⟨rfl, unchanged, -⟩, named⟩ :=
    (wrappers (.className w) rfl itself).exists_ok (by omega)
  obtain rfl := unchanged rfl
  exact ⟨o, w, _, ran, ⟨n, a, m', walked⟩, ⟨n', m'', overrun, failed⟩, k, named⟩

end Engine

end ProxyEngine
