import ProxyEngine.Proofs.Context.Roots

/-! Chains of stored prototypes. Followed through live objects that are no proxies, a
chain comes to an end: at null, at a dead handle or at a proxy. The check made when a
prototype is stored stops at proxies as well, so cycles through proxies may exist; and
it is complete only because a prototype is a handle that was issued before. A handle
that no allocation had returned yet could come to life later, inside its own chain. -/

namespace ProxyEngine

theorem Object.isProxy_eq (x : Object) : x.isProxy = x.proxy?.isSome := by
  unfold isProxy ObjectKind.isProxy proxy?
  cases x.kind <;> rfl

theorem Object.Change.unmet {c : Context} {o : ObjectId} {x y : Object} (change : x.Change c o y)
    (differs : y.prototype ≠ x.prototype) :
    c.prototypeWalkMeets o (c.heap.slotCount + 1) y.prototype = false := by
  cases change with
  | prototype _ _ _ unmet => exact unmet
  | _ => exact absurd rfl differs

namespace Context

def onward? (c : Context) (o : ObjectId) : Option (Option ObjectId) :=
  (c.get? o).bind fun x => if x.isProxy then none else some x.prototype

/-- From `q` along the stored prototypes there are the live non-proxies `os`, and then
`last`, which is null, a dead handle or a proxy. -/
inductive Ascent (c : Context) : (q : Option ObjectId) → (os : List ObjectId) →
    (last : Option ObjectId) → Prop
  | null : Ascent c none [] none
  | stop {o : ObjectId} : c.onward? o = none → Ascent c (some o) [] (some o)
  | next {o : ObjectId} {p last : Option ObjectId} {os : List ObjectId} :
      c.onward? o = some p → Ascent c p os last → Ascent c (some o) (o :: os) last

def Ascends (c : Context) (q : Option ObjectId) : Prop :=
  ∃ os last, c.Ascent q os last

variable {c c' : Context} {o t : ObjectId} {q p last last' : Option ObjectId}
  {os os' : List ObjectId}

theorem onward?_eq_none : c.onward? o = none ↔ c.isLive o = false ∨ c.isProxy o = true := by
  unfold onward? isProxy proxy? isLive Heap.isLive
  rw [← get?]
  cases c.get? o with
  | none => simp
  | some x => simp [Object.isProxy_eq, Option.isSome_iff_ne_none]

theorem onward?_eq_some :
    c.onward? o = some p ↔ ∃ x, c.get? o = some x ∧ x.isProxy = false ∧ x.prototype = p := by
  unfold onward?
  cases c.get? o with
  | none => simp
  | some x => cases x.isProxy <;> simp

theorem onward?_of_heap (same : c'.heap = c.heap) (o : ObjectId) : c'.onward? o = c.onward? o := by
  rw [onward?, get?, same, onward?, get?]

namespace Ascent

theorem unique (ascent : c.Ascent q os last) (ascent' : c.Ascent q os' last') :
    os = os' ∧ last = last' := by
  induction ascent generalizing os' with
  | null =>
    cases ascent'
    exact ⟨rfl, rfl⟩
  | stop here =>
    cases ascent' with
    | stop => exact ⟨rfl, rfl⟩
    | next here' => cases here.symm.trans here'
  | next here _ ih =>
    cases ascent' with
    | stop here' => cases here.symm.trans here'
    | next here' rest =>
      obtain rfl := Option.some.inj (here.symm.trans here')
      obtain ⟨rfl, rfl⟩ := ih rest
      exact ⟨rfl, rfl⟩

theorem from_mem (ascent : c.Ascent q os last) (listed : o ∈ os) :
    ∃ os', c.Ascent (some o) os' last ∧ os'.length ≤ os.length := by
  induction ascent with
  | null => cases listed
  | stop => cases listed
  | next here rest ih =>
    rcases List.mem_cons.1 listed with rfl | later
    · exact ⟨_, .next here rest, Nat.le_refl _⟩
    · obtain ⟨os', ascent, shorter⟩ := ih later
      exact ⟨os', ascent, Nat.le_succ_of_le shorter⟩

theorem nodup (ascent : c.Ascent q os last) : os.Nodup := by
  induction ascent with
  | null => exact .nil
  | stop => exact .nil
  | @next o p last os here rest ih =>
    refine List.nodup_cons.2 ⟨fun listed => ?_, ih⟩
    obtain ⟨os', again, shorter⟩ := rest.from_mem listed
    obtain ⟨rfl, -⟩ := (next here rest).unique again
    exact absurd shorter (Nat.not_succ_le_self _)

theorem onward (ascent : c.Ascent q os last) (listed : o ∈ os) : ∃ p, c.onward? o = some p := by
  induction ascent with
  | null => cases listed
  | stop => cases listed
  | next here _ ih =>
    rcases List.mem_cons.1 listed with rfl | later
    · exact ⟨_, here⟩
    · exact ih later

theorem last_stops (ascent : c.Ascent q os last) (same : last = some o) : c.onward? o = none := by
  induction ascent with
  | null => cases same
  | stop here => exact Option.some.inj same ▸ here
  | next _ _ ih => exact ih same

theorem length_le (ascent : c.Ascent q os last) : os.length ≤ c.heap.slotCount := by
  have live : os ⊆ c.heap.ids := fun o listed => by
    obtain ⟨p, onward⟩ := ascent.onward listed
    obtain ⟨x, found, -⟩ := onward?_eq_some.1 onward
    exact Heap.mem_ids.2 (Option.isSome_iff_exists.2 ⟨x, found⟩)
  refine Nat.le_trans (ascent.nodup.subperm live).length_le ?_
  exact Nat.le_trans (List.length_filterMap_le ..) (Nat.le_of_eq (List.length_range ..))

/-- The walk of the cycle check meets what the chain meets, if it does not run out. -/
theorem walkMeets (ascent : c.Ascent q os last) {budget : Nat} (enough : os.length < budget)
    (o : ObjectId) : c.prototypeWalkMeets o budget q = true ↔ o ∈ os ∨ last = some o := by
  induction ascent generalizing budget with
  | null =>
    obtain _ | budget := budget
    · cases enough
    · simp [prototypeWalkMeets]
  | @stop r here =>
    obtain _ | budget := budget
    · cases enough
    · rw [prototypeWalkMeets, Bool.or_eq_true, beq_iff_eq]
      unfold onward? at here
      cases found : c.get? r with
      | none => simp
      | some x =>
        rw [found, Option.bind_some] at here
        cases proxy : x.isProxy with
        | true => simp [proxy]
        | false => simp [proxy] at here
  | @next r p last os here rest ih =>
    obtain _ | budget := budget
    · cases enough
    · obtain ⟨x, found, other, rfl⟩ := onward?_eq_some.1 here
      rw [prototypeWalkMeets, Bool.or_eq_true, beq_iff_eq, found]
      dsimp only
      rw [other, Bool.not_false, Bool.true_and, ih (Nat.lt_of_succ_lt_succ enough), List.mem_cons,
        or_assoc, eq_comm]

theorem congr (ascent : c.Ascent q os last)
    (same : ∀ o, o ∈ os ∨ last = some o → c'.onward? o = c.onward? o) : c'.Ascent q os last := by
  induction ascent with
  | null => exact .null
  | stop here => exact .stop ((same _ (.inr rfl)).trans here)
  | next here _ ih =>
    refine .next ((same _ (.inl (.head _))).trans here) (ih fun o met => same o ?_)
    exact met.imp_left (.tail _)

end Ascent

/-! What is made of chains when one object changes its course, and when objects die. -/

theorem ascends_redirect {proto : Option ObjectId}
    (others : ∀ r, r ≠ o → c'.onward? r = c.onward? r)
    (here : c'.onward? o = none ∨ c'.onward? o = some proto)
    (further : c.Ascent proto os last) (avoided : o ∉ os ∧ last ≠ some o)
    (ascends : c.Ascends q) : c'.Ascends q := by
  have start : c'.Ascends (some o) := by
    rcases here with stops | leads
    · exact ⟨_, _, .stop stops⟩
    · refine ⟨_, _, .next leads (further.congr fun r met => others r ?_)⟩
      rintro rfl
      exact met.elim avoided.1 avoided.2
  obtain ⟨os, last, ascent⟩ := ascends
  induction ascent with
  | null => exact ⟨_, _, .null⟩
  | @stop r stops =>
    by_cases same : r = o
    · exact same ▸ start
    · exact ⟨_, _, .stop ((others r same).trans stops)⟩
  | @next r _ _ _ leads _ ih =>
    by_cases same : r = o
    · exact same ▸ start
    · obtain ⟨os, last, ascent⟩ := ih
      exact ⟨_, _, .next ((others r same).trans leads) ascent⟩

theorem ascends_of_dying (dying : ∀ r, c'.onward? r = none ∨ c'.onward? r = c.onward? r)
    (ascends : c.Ascends q) : c'.Ascends q := by
  obtain ⟨os, last, ascent⟩ := ascends
  induction ascent with
  | null => exact ⟨_, _, .null⟩
  | @stop r stops => exact ⟨_, _, .stop ((dying r).elim id fun same => same.trans stops)⟩
  | @next r _ _ _ leads _ ih =>
    rcases dying r with stops | same
    · exact ⟨_, _, .stop stops⟩
    · obtain ⟨os, last, ascent⟩ := ih
      exact ⟨_, _, .next (same.trans leads) ascent⟩

/-! The invariant. -/

def Sourced (c c' : Context) : Prop :=
  ∀ o x t, c'.get? o = some x → x.prototype = some t → c.heap.Issued t

/-- All chains end, and no prototype is a handle that is yet to be issued. -/
structure Grounded (c : Context) : Prop where
  valid : c.heap.Valid
  intrinsic : ∀ p, p = objectPrototype ∨ p = functionPrototype → c.heap.Issued p
  sourced : c.Sourced c
  ascends : ∀ q, c.Ascends q

/-- Some run brings a fresh context here in which only issued handles are stored as
prototypes. -/
def Sound (c : Context) : Prop :=
  ∃ options, Relation.ReflTransGen (fun c c' => c.Step c' ∧ c.Sourced c') (create options) c

theorem Grounded.issued_of_met (grounded : c.Grounded) (ascent : c.Ascent q os last)
    (start : ∀ t, q = some t → c.heap.Issued t) :
    ∀ r, r ∈ os ∨ last = some r → c.heap.Issued r := by
  induction ascent with
  | null => simp
  | stop => simpa using start
  | @next o p _ _ here _ ih =>
    obtain ⟨x, found, -, rfl⟩ := onward?_eq_some.1 here
    intro r met
    rcases met with listed | ends
    · rcases List.mem_cons.1 listed with rfl | later
      · exact start r rfl
      · exact ih (fun t own => grounded.sourced _ x t found own) r (.inl later)
    · exact ih (fun t own => grounded.sourced _ x t found own) r (.inr ends)

namespace Grounded

theorem of_heap (grounded : c.Grounded) (same : c'.heap = c.heap) : c'.Grounded where
  valid := same ▸ grounded.valid
  intrinsic p own := same ▸ grounded.intrinsic p own
  sourced o x t found own := by
    rw [get?, same] at found
    rw [same]
    exact grounded.sourced o x t found own
  ascends q := by
    obtain ⟨os, last, ascent⟩ := grounded.ascends q
    exact ⟨os, last, ascent.congr fun o _ => onward?_of_heap same o⟩

theorem alloc (grounded : c.Grounded) {heap : Heap} {x : Object}
    (stored : c.heap.alloc? x = some (o, heap)) (sourced : c.Sourced { c with heap }) :
    Grounded { c with heap } := by
  have found := grounded.valid.get?_alloc stored
  have issued (t : ObjectId) (old : c.heap.Issued t) : heap.Issued t :=
    (grounded.valid.issued_alloc stored).2 (.inr old)
  refine ⟨grounded.valid.alloc stored, fun p own => issued p (grounded.intrinsic p own),
    fun o x t found own => issued t (sourced o x t found own), fun q => ?_⟩
  obtain ⟨os, last, further⟩ := grounded.ascends x.prototype
  have here : Context.get? { c with heap } o = some x := (found o).trans (if_pos rfl)
  have met := grounded.issued_of_met further fun t own => sourced o x t here own
  refine ascends_redirect (o := o) (fun r other => ?_) ?_ further ⟨fun listed => ?_, fun ends => ?_⟩
    (grounded.ascends q)
  · rw [onward?, onward?, get?, found, if_neg other, get?]
  · rw [onward?, here, Option.bind_some]
    cases x.isProxy <;> simp
  · exact grounded.valid.not_issued_alloc stored (met o (.inl listed))
  · exact grounded.valid.not_issued_alloc stored (met o (.inr ends))

theorem change (grounded : c.Grounded) {x : Object} {f : Object → Object}
    (found : c.get? o = some x) (change : x.Change c o (f x))
    (sourced : c.Sourced { c with heap := c.heap.modify o f }) :
    Grounded { c with heap := c.heap.modify o f } := by
  have look := Heap.get?_modify c.heap o
  have others (r : ObjectId) (other : r ≠ o) :
      onward? { c with heap := c.heap.modify o f } r = c.onward? r := by
    rw [onward?, get?, look, if_neg other, onward?, get?]
  have here : onward? { c with heap := c.heap.modify o f } o =
      if (f x).isProxy then none else some (f x).prototype := by
    rw [onward?, get?, look, if_pos rfl, show c.heap.get? o = some x from found]
    rfl
  have kind : (f x).isProxy = x.isProxy := by
    rw [Object.isProxy_eq, Object.isProxy_eq, ← Option.isSome_map (f := ProxyState.handler),
      ← Option.isSome_map (f := ProxyState.handler)]
    exact congrArg Option.isSome (Object.handler?_of_nature change.nature)
  refine ⟨grounded.valid.modify o f, fun p own => (Heap.issued_modify c.heap f).2
    (grounded.intrinsic p own), fun o x t found own =>
    (Heap.issued_modify c.heap f).2 (sourced o x t found own), fun q => ?_⟩
  by_cases same : (f x).prototype = x.prototype
  · obtain ⟨os, last, ascent⟩ := grounded.ascends q
    refine ⟨os, last, ascent.congr fun r _ => ?_⟩
    by_cases other : r = o
    · rw [other, here, kind, same, onward?, found]
      rfl
    · exact others r other
  · obtain ⟨os, last, further⟩ := grounded.ascends (f x).prototype
    have unmet := Bool.eq_false_iff.1 (change.unmet same)
    have enough : os.length < c.heap.slotCount + 1 := Nat.lt_succ_of_le further.length_le
    rw [Ne, further.walkMeets enough, not_or] at unmet
    refine ascends_redirect others ?_ further unmet (grounded.ascends q)
    rw [here]
    cases (f x).isProxy <;> simp

theorem sweep (grounded : c.Grounded) (dead : List ObjectId) (marked n : Nat) :
    Grounded ((c.releaseAll dead).2.recordCollection marked n) := by
  have found (o : ObjectId) : ((c.releaseAll dead).2.recordCollection marked n).get? o =
      if o ∈ dead then none else c.get? o := releaseAll_get? c dead o
  have ages : c.heap.Ages ((c.releaseAll dead).2.recordCollection marked n).heap :=
    (releaseAll_ages grounded.valid dead).reset
  refine ⟨ages.valid, fun p own => ages.issued p (grounded.intrinsic p own),
    fun o x t here own => ages.issued t ?_, fun q => ascends_of_dying (fun r => ?_)
      (grounded.ascends q)⟩
  · rw [found] at here
    split at here
    · cases here
    · exact grounded.sourced o x t here own
  · rw [onward?, onward?, found]
    split
    · exact .inl rfl
    · exact .inr rfl

theorem step (grounded : c.Grounded) (step : c.Step c') (sourced : c.Sourced c') :
    c'.Grounded := by
  cases step with
  | edit edit =>
    cases edit with
    | alloc kind prototype stored => exact grounded.alloc stored sourced
    | change f found change => exact grounded.change found change sourced
    | _ => exact grounded.of_heap rfl
  | sweep dead marked => exact grounded.sweep dead marked _
  | _ => exact grounded.of_heap rfl

end Grounded

theorem grounded_create (options : ContextOptions) : (create options).Grounded := by
  have valid := create_valid options
  have parent (x : Object) (here : x ∈ intrinsics) :
      x.isProxy = false ∧ (x.prototype = none ∨ x.prototype = some objectPrototype) := by
    simp only [intrinsics, List.mem_cons, List.not_mem_nil, or_false] at here
    rcases here with rfl | rfl | rfl <;> exact ⟨rfl, by simp⟩
  have issued : (create options).heap.Issued objectPrototype := valid.issued_of_live rfl
  have top : (create options).Ascent (some objectPrototype) [objectPrototype] none :=
    .next rfl .null
  refine ⟨valid, fun p own => ?_, fun o x t found own => ?_, fun q => ?_⟩
  · rcases own with rfl | rfl
    · exact issued
    · exact valid.issued_of_live rfl
  · rcases (parent x (mem_intrinsics options found)).2 with root | root
    · cases root.symm.trans own
    · obtain rfl := Option.some.inj (root.symm.trans own)
      exact issued
  · cases q with
    | none => exact ⟨_, _, .null⟩
    | some o =>
      cases found : (create options).get? o with
      | none => exact ⟨_, _, .stop (by simp [onward?, found])⟩
      | some x =>
        obtain ⟨other, root | root⟩ := parent x (mem_intrinsics options found)
        · exact ⟨_, _, .next (onward?_eq_some.2 ⟨x, found, other, root⟩) .null⟩
        · exact ⟨_, _, .next (onward?_eq_some.2 ⟨x, found, other, root⟩) top⟩

theorem sound_create (options : ContextOptions) : (create options).Sound :=
  ⟨options, .refl⟩

theorem Sound.grounded (sound : c.Sound) : c.Grounded := by
  obtain ⟨options, steps⟩ := sound
  induction steps with
  | refl => exact grounded_create options
  | tail _ last ih => exact ih.step last.1 last.2

namespace Sound

theorem step (sound : c.Sound) (step : c.Step c') (sourced : c.Sourced c') : c'.Sound :=
  sound.imp fun _ steps => .tail steps ⟨step, sourced⟩

theorem rest (sound : c.Sound) (step : c.Step c') (same : c'.heap = c.heap) : c'.Sound := by
  refine sound.step step fun o x t found own => ?_
  rw [get?, same] at found
  exact sound.grounded.sourced o x t found own

theorem sweep (sound : c.Sound) (dead : List ObjectId) (marked : Nat) :
    Sound ((c.releaseAll dead).2.recordCollection marked (c.releaseAll dead).1) := by
  refine sound.step (.sweep dead marked) fun o x t found own => ?_
  have look : ((c.releaseAll dead).2.recordCollection marked (c.releaseAll dead).1).get? o =
      if o ∈ dead then none else c.get? o := releaseAll_get? c dead o
  rw [look] at found
  split at found
  · cases found
  · exact sound.grounded.sourced o x t found own

theorem tolerates {c₀ : Context} (grounded : c₀.Grounded) :
    Tolerates (fun c => c.Sound ∧ ∀ t, c₀.heap.Issued t → c.heap.Issued t) c₀.heap.Issued
      fun _ _ => True where
  intrinsic p own := ⟨grounded.intrinsic p own, trivial⟩
  alloc {c o heap kind prototype} holds ancestor _ stored := by
    obtain ⟨sound, later⟩ := holds
    have valid := sound.grounded.valid
    refine ⟨⟨sound.step (.edit (.alloc kind prototype stored)) fun r x t found own => ?_,
      fun t old => (valid.issued_alloc stored).2 (.inr (later t old))⟩, fun _ => trivial⟩
    rw [get?, valid.get?_alloc stored] at found
    split at found
    · cases found
      exact later t (ancestor t own).1
    · exact sound.grounded.sourced r x t found own
  change {c o x} f holds found change ancestor _ := by
    obtain ⟨sound, later⟩ := holds
    refine ⟨sound.step (.edit (.change f found change)) fun r y t here own => ?_,
      fun t old => (Heap.issued_modify c.heap f).2 (later t old)⟩
    rw [get?, Heap.get?_modify, show c.heap.get? o = some x from found] at here
    split at here
    · cases here
      rcases ancestor t own with before | new
      · exact sound.grounded.sourced o x t found before
      · exact later t new
    · exact sound.grounded.sourced r y t here own
  pending v holds _ := ⟨holds.1.rest (.edit (.pending v)) rfl, holds.2⟩
  rest holds edit heap _ _ := ⟨holds.1.rest (.edit edit) heap, heap ▸ holds.2⟩

theorem update (sound : c.Sound) {a : Action} {x : a.Response} (ran : a.update c = some (x, c'))
    (handed : ∀ t, a.prototype? = some t → c.heap.Issued t) : c'.Sound := by
  by_cases registers : a.Registers
  · rw [Action.rest_of_registers registers ran]
    exact sound.rest (.edit (.roots _)) rfl
  · exact (a.respects (tolerates sound.grounded) registers handed (fun _ _ => trivial)
      ⟨sound, fun _ old => old⟩ ran).1.1

end Sound

end Context

end ProxyEngine
