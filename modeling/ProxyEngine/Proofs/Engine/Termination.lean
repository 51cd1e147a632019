import ProxyEngine.Proofs.Engine.Service

/-! Every operation ends, on every graph of objects. Where no proxy has traps and host
functions do not come back with operations, an operation is answered by going one level
deeper, by climbing a chain of ordinary objects, which ends, or by walking on to an object
that was not visited before. The induction is on the levels left below the depth limit;
within a level, operations are settled in the order in which they rely on each other. -/

namespace ProxyEngine

variable {σ : Type} {s : Shape}

def Handler.Passive (h : Handler) : Prop :=
  ∀ slot, h.trapped? slot = none

namespace Context

/-- Prototypes are grounded, and no proxy has traps. -/
structure Docile (c : Context) : Prop where
  grounded : c.Grounded
  passive : ∀ o h, c.handler? o = some h → h.Passive

theorem Docile.of_heap {c c' : Context} (docile : c.Docile) (same : c'.heap = c.heap) :
    c'.Docile where
  grounded := docile.grounded.of_heap same
  passive o h handler := by
    refine docile.passive o h ?_
    rwa [handler?, proxy?, get?, same] at handler

end Context

def Machine.levels (m : Machine σ) : Nat :=
  m.context.maxDepth - m.context.depth

theorem Machine.docile_deeper {m : Machine σ} (docile : m.context.Docile) :
    (m.deeper 1).context.Docile :=
  docile.of_heap rfl

theorem Machine.levels_deeper {m : Machine σ} (room : m.context.depth < m.context.maxDepth) :
    (m.deeper 1).levels < m.levels := by
  show m.context.maxDepth - (m.context.depth + 1) < m.context.maxDepth - m.context.depth
  omega

namespace Engine

open Context

section

variable {F : Foreign σ} {m : Machine σ} {n : Nat} {op : Op s}

theorem dispatched_of_onward {p : Option ObjectId} (here : m.context.onward? op.subject = some p)
    (method : Delivers (run F · (Ordinary.method op)) m (F.Crowds 2 m.context) (op.After F m)) :
    Dispatched F m op := by
  obtain ⟨x, found, other, -⟩ := onward?_eq_some.1 here
  have other : x.proxy? = none := by simpa [Object.isProxy_eq] using other
  exact method.of_later (j := 0) (k := 0) fun fuel => dispatch_ordinary found other

theorem delivers_call (acts : F.Acts) (o : ObjectId) (this : Value) (args : List Value) :
    Delivers (run F · (Ordinary.call o this args).run) m (F.Crowds 2 m.context)
      ((Op.call o this args).After F m) := by
  refine delivers_context ?_
  cases m.context.function? o with
  | none => exact delivers_gaveUp m (.call o this args) .internalError _
  | some f =>
    exact (delivers_runFunction acts f.1 this args m).mono
      (fun crowds => crowds.mono fun _ => by omega) fun _ _ => id

theorem delivers_ordinary (acts : F.Acts) (elementary : op.Elementary) :
    Delivers (run F · (Ordinary.method op)) m (F.Crowds 2 m.context) (op.After F m) := by
  cases op with
  | call o this args => exact delivers_call acts o this args
  | functionToString o b =>
    refine delivers_context ?_
    cases m.context.function? o with
    | none => exact delivers_gaveUp m (.functionToString o b) .typeError _
    | some f =>
      exact delivers_total (a := .newString _) (Update.total_newString _) _ fun _ _ _ => trivial
  | defineProperty o k d =>
    exact delivers_total (a := .defineStored o k d) (Update.total_defineStored o k d) _
      fun _ _ _ => trivial
  | delete o k =>
    exact delivers_total (a := .deleteStored o k) (Update.total_deleteStored o k) _
      fun _ _ _ => trivial
  | setPrototype o p =>
    exact delivers_total (a := .storePrototype o p) (Update.total_storePrototype o p) _
      fun _ _ _ => trivial
  | setImmutablePrototype o =>
    exact delivers_total (a := .fixPrototype o) (Update.total_modifyObject o _) _
      fun _ _ _ => trivial
  | preventExtensions o =>
    exact delivers_total (a := .storeExtensible o false) (Update.total_modifyObject o _) _
      fun _ _ _ => trivial
  | getOwnProperty o k => exact delivers_reads fun _ => rfl
  | ownKeys o listed => exact delivers_reads fun _ => rfl
  | getPrototype o => exact delivers_reads fun _ => rfl
  | isCallable o => exact delivers_reads fun _ => rfl
  | isConstructor o => exact delivers_reads fun _ => rfl
  | getPrototypeIfOrdinary o => exact delivers_reads fun _ => trivial
  | isExtensible o => exact delivers_reads fun _ => trivial
  | hasOwn o k => exact delivers_reads fun _ => trivial
  | ownEnumerableKeys o listed => exact delivers_reads fun _ => trivial
  | className o => exact delivers_reads fun _ => trivial
  | unbox o => exact delivers_reads fun _ => trivial
  | _ => exact elementary.elim

variable (below : ∀ m : Machine σ, m.context.Docile → m.levels < n → Serves F m)
  (docile : m.context.Docile) (level : m.levels ≤ n)

include below docile level

theorem dispatched_of_inert (op : Op s) (inert : m.context.onward? op.subject = none) :
    Dispatched F m op := by
  cases found : m.context.get? op.subject with
  | none =>
    exact (delivers_gaveUp m op _ _).of_later (j := 0) (k := 0) fun fuel => dispatch_dead found
  | some x =>
    obtain ⟨p, proxy⟩ : ∃ p, x.proxy? = some p := by
      rw [onward?, found, Option.bind_some, Object.isProxy_eq] at inert
      exact Option.ne_none_iff_exists'.1 (by simpa using inert)
    have handler : m.context.handler? op.subject = some p.handler := by
      simp [handler?, proxy?, found, proxy]
    by_cases room : m.context.depth < m.context.maxDepth
    · have deeper := Machine.docile_deeper docile
      have lower := Nat.lt_of_lt_of_le (Machine.levels_deeper room) level
      have serves := below (m.deeper 1) deeper lower
      have method : Delivers (run F · (F.method p.handler op)) (m.deeper 1) (F.Crowds 2 m.context)
          (op.After F (m.deeper 1)) := by
        rw [F.method_of_empty (docile.passive _ _ handler op.slot)]
        cases p.handler.base with
        | plain => exact delivers_plain serves op
        | wrapper => exact delivers_wrapper serves op
      have nested : Delivers (fun fuel => (run F fuel (F.method p.handler op)).nested 1) m
          (F.Crowds 2 m.context) (op.After F m) :=
        Delivers.nested (method.imp fun _ _ after well => (after well).shallower)
      exact nested.of_later (j := 0) (k := 0) fun fuel => dispatch_proxy handler room
    · exact (delivers_gaveUp m op _ _).of_later (j := 0) (k := 0)
        fun fuel => dispatch_full handler room

theorem served_elementary (acts : F.Acts) (op : Op s) (elementary : op.Elementary) :
    Served F m op := by
  have dispatched {s : Shape} (op : Op s) (elementary : op.Elementary) : Dispatched F m op := by
    cases here : m.context.onward? op.subject with
    | none => exact dispatched_of_inert below docile level op here
    | some p => exact dispatched_of_onward here (delivers_ordinary acts elementary)
  refine served_of_dispatched (fun q asked => ?_) (dispatched _ ?_)
  · refine served_of_unasked (Op.query?_capability q) (dispatched q ?_)
    cases q <;> trivial
  · cases op <;> exact elementary

/-- Lookups climb a chain that ends, and what is left is elementary or one level deeper. -/
theorem served_lookup (acts : F.Acts) (l : Lookup s) (q : ObjectId) : Served F m (l.op q) := by
  have served {s : Shape} (op : Op s) := served_elementary below docile level acts op
  obtain ⟨os, last, ascent⟩ := docile.grounded.ascends (some q)
  obtain ⟨k, -, climbs⟩ := issue_ascent (F := F) l ascent
  have rest : Delivers (run F · (l.after m.context os last)) m (F.Crowds 2 m.context)
      ((l.op q).After F m) := by
    unfold Lookup.after
    cases m.context.nearest? os l.key with
    | some d => exact delivers_found served l d q
    | none =>
      cases ends : last with
      | none => exact delivers_missed served l q
      | some r =>
        have inert := ascent.last_stops ends
        have dispatched := dispatched_of_inert below docile level (l.op r) (by simpa using inert)
        have last := delivers_perform (served_of_unasked (l.query?_op r) dispatched)
        exact last.imp fun _ _ after => by cases l <;> exact after
  exact rest.of_later (j := 1) (k := k + 1) climbs

theorem delivers_prototypeFor (acts : F.Acts) (newTarget : Value) :
    Delivers (run F · (Ordinary.prototypeFor newTarget).run) m (F.Crowds 2 m.context)
      fun a m' => Fallible.isFailure a = false → F.Abstains →
        m'.context.heap.slotCount = m.context.heap.slotCount := by
  unfold Ordinary.prototypeFor
  cases newTarget.asObject? with
  | none => exact delivers_done fun _ _ => rfl
  | some t =>
    have interned : Delivers (run F · (Program.key "prototype")) m (F.Crowds 2 m.context)
        fun _ m₁ => ∃ atoms, m₁ = { m with context := { m.context with atoms } } := by
      have total := Update.total_key "prototype"
      refine delivers_act (fun refused => absurd refused (total.ne_none _)) fun k c ran => ?_
      obtain ⟨atoms, rfl⟩ :=
        Update.key_eq_some (show Update.key "prototype" m.context = some (k, c) from ran)
      exact ⟨atoms, rfl⟩
    refine delivers_lift interned ?_
    rintro k m₁ ⟨atoms, rfl⟩
    have read := served_lookup (m := ⟨{ m.context with atoms }, m.state⟩) below
      (docile.of_heap rfl) level acts (.get newTarget k) t
    exact delivers_attempt (delivers_perform read) (fun _ _ _ => (nomatch ·))
      fun v m₁ kept => delivers_done fun _ => kept rfl

theorem delivers_construct (acts : F.Acts) (o : ObjectId) (args : List Value)
    (newTarget : Value) :
    Delivers (run F · (Ordinary.construct o args newTarget).run) m (F.Crowds 2 m.context)
      fun _ _ => True := by
  refine delivers_context ?_
  cases m.context.function? o with
  | none =>
    exact (delivers_gaveUp m (.construct o args newTarget) .internalError _).imp
      fun _ _ _ => trivial
  | some f =>
    refine delivers_attempt (p := (Ordinary.prototypeFor newTarget).run)
      (delivers_prototypeFor below docile level acts newTarget) (fun _ _ _ => trivial)
      fun proto m₁ kept => ?_
    have kept := kept rfl
    refine delivers_lift (delivers_act (a := .newObject (some proto))
      (Q := fun _ m₂ => m₂.context.heap.slotCount ≤ m₁.context.heap.slotCount + 1)
      (fun refused abstains => ?_) fun this c made => ?_) fun this m₂ grown => ?_
    · have full := Update.full_of_alloc refused
      have same := kept abstains
      omega
    · obtain ⟨⟨_, heap⟩, stored, ⟨⟩⟩ := Option.map_eq_some_iff.1 made
      exact Heap.slotCount_alloc stored
    · have ran := delivers_runFunction acts f.1 (.object this) args m₂
      refine (delivers_attempt (ran.mono (fun crowds => crowds.mono fun abstains => ?_)
        fun _ _ _ => trivial) (fun _ _ _ => trivial) fun v m₃ _ => delivers_done trivial)
      have same := kept abstains
      omega

theorem delivers_visitKeys (acts : F.Acts) (o : ObjectId) (ks seen listed : List PropertyKey) :
    Delivers (run F · (Ordinary.visitKeys o ks seen listed)) m (F.Crowds 2 m.context)
      fun visited m' => visited.1.failed = false → m' = m := by
  induction ks generalizing seen listed with
  | nil => exact delivers_done fun _ => rfl
  | cons k ks ih =>
    unfold Ordinary.visitKeys
    split
    · exact ih seen listed
    · have own := served_elementary below docile level acts (.getOwnProperty o k) trivial
      refine delivers_bind (delivers_perform own) fun own m₁ unchanged => ?_
      rcases own with _ | d
      · exact delivers_done fun well => Bool.noConfusion well
      · obtain rfl := unchanged rfl
        exact ih (k :: seen) _

theorem delivers_ownKeys (acts : F.Acts) (o : ObjectId) :
    Delivers (issue F · (.ownKeys o [])) m (F.Crowds 2 m.context) fun own m' =>
      own.failed = false → m' = m ∧ m.context.isLive o = true := by
  cases found : m.context.get? o with
  | none =>
    have dead (fuel : Nat) : issue F (fuel + 1) (.ownKeys o []) m = _ :=
      (congrFun (issue_unasked rfl) m).trans (dispatch_dead found)
    refine ((delivers_giveUp m (.keys []) _ _).of_later (j := 0) (k := 1) dead).mono
      Foreign.crowds_of_full ?_
    rintro _ m' ⟨rfl, -⟩ ⟨⟩
  | some x =>
    have live : m.context.isLive o = true := Option.isSome_iff_exists.2 ⟨x, found⟩
    exact (served_elementary below docile level acts (.ownKeys o []) trivial).imp
      fun _ _ unchanged well => ⟨unchanged well, live⟩

theorem delivers_walk (acts : F.Acts) (o : ObjectId) (visited : List ObjectId)
    (seen listed : List PropertyKey) :
    Delivers (answer F · (.enumerateFrom o visited seen listed)) m (F.Crowds 2 m.context)
      fun _ _ => True := by
  suffices walk : ∀ (size : Nat) (left : List ObjectId), left.length = size →
      (∀ p, m.context.isLive p = true → p ∉ visited → p ∈ left) →
      Delivers (answer F · (.enumerateFrom o visited seen listed)) m (F.Crowds 2 m.context)
        fun _ _ => True from
    walk _ m.context.heap.ids rfl fun p live _ => Heap.mem_ids.2 live
  intro size
  -- The live objects that were not visited are among `left`, which gets shorter.
  induction size using Nat.strong_induction_on generalizing o visited seen listed with
  | _ size ih =>
    intro left length unvisited
    suffices walk : Delivers (run F · (Ordinary.enumerateFrom o visited seen listed)) m
        (F.Crowds 2 m.context) fun _ _ => True from
      walk.of_later (j := 0) (k := 1) fun fuel => rfl
    unfold Ordinary.enumerateFrom
    by_cases before : o ∈ visited
    · rw [if_pos (by simpa using before)]
      exact delivers_done trivial
    · rw [if_neg (by simpa using before)]
      have keys := delivers_perform (delivers_ownKeys below docile level acts o)
      refine delivers_bind keys fun own m₁ unchanged => ?_
      cases failed : own.failed with
      | true => exact delivers_done trivial
      | false =>
        obtain ⟨rfl, live⟩ := unchanged failed
        refine delivers_bind (delivers_visitKeys below docile level acts o own.keys seen listed)
          fun here m₂ unchanged => ?_
        obtain ⟨here, seen⟩ := here
        dsimp only at unchanged ⊢
        cases failed : here.failed with
        | true => exact delivers_done trivial
        | false =>
          obtain rfl := unchanged failed
          have proto := served_elementary below docile level acts (.getPrototype o) trivial
          refine delivers_bind (delivers_perform proto) fun up m₃ unchanged => ?_
          rcases up with _ | _ | p
          · exact delivers_done trivial
          · exact delivers_done trivial
          · obtain rfl := unchanged rfl
            have listed : o ∈ left := unvisited o live before
            have shorter : (left.erase o).length < size := by
              have := List.length_pos_of_mem listed
              rw [List.length_erase_of_mem listed]
              omega
            have unvisited' (q : ObjectId) (live : m₃.context.isLive q = true)
                (apart : q ∉ o :: visited) : q ∈ left.erase o := by
              rw [List.mem_cons, not_or] at apart
              exact (List.mem_erase_of_ne apart.1).2 (unvisited q live apart.2)
            have rest := ih _ shorter p (o :: visited) seen here.keys (left.erase o) rfl unvisited'
            exact delivers_ask rest

theorem serves_of_below (acts : F.Acts) : Serves F m where
  op {s} op := by
    have lookup {s : Shape} (l : Lookup s) (o : ObjectId) :=
      served_lookup below docile level acts l o
    have elementary {s : Shape} (op : Op s) := served_elementary below docile level acts op
    cases op with
    | has o k => exact lookup (.has k) o
    | get o receiver k => exact lookup (.get receiver k) o
    | set o k v receiver => exact lookup (.set k v receiver) o
    | construct o args newTarget =>
      refine served_of_dispatched (fun q asked => elementary q (by cases q <;> trivial)) ?_
      cases here : m.context.onward? o with
      | none => exact dispatched_of_inert below docile level _ here
      | some p =>
        exact dispatched_of_onward here
          ((delivers_construct below docile level acts o args _).imp fun _ _ _ _ => trivial)
    | enumerate o listed =>
      refine served_of_unasked rfl ?_
      cases here : m.context.onward? o with
      | none => exact dispatched_of_inert below docile level _ here
      | some p =>
        have walk := delivers_ask (delivers_walk below docile level acts o [] [] listed)
        exact dispatched_of_onward here (walk.imp fun _ _ _ _ => trivial)
    | _ => exact elementary _ trivial
  walk := delivers_walk below docile level acts

end

/-- Where no proxy has traps and host functions only act, everything ends. -/
theorem serves_of_docile {F : Foreign σ} (acts : F.Acts) {m : Machine σ}
    (docile : m.context.Docile) : Serves F m := by
  induction level : m.levels using Nat.strong_induction_on generalizing m with
  | _ n ih =>
    exact serves_of_below (fun m₁ docile lower => ih _ lower docile rfl) docile (Nat.le_of_eq level)
      acts

end Engine

end ProxyEngine
