import ProxyEngine.Proofs.Engine.Law

/-! What stays as it is. An object that is not extensible gains no property and
keeps its prototype, a prototype made immutable is kept, and a property that is
not configurable keeps all but a writable value. A live object loses none of this
along any run, as long as nothing asks the engine to make an object extensible
again, which no operation does. -/

namespace ProxyEngine

/-- How a property that is not configurable can look later. -/
inductive Property.Endures : Property → Property → Prop
  | accessor {getter setter : Option ObjectId} {attrs attrs' : Attributes} :
      attrs'.configurable = false → attrs'.enumerable = attrs.enumerable →
      Endures (.accessor getter setter attrs) (.accessor getter setter attrs')
  | data {v v' : Value} {attrs attrs' : Attributes} :
      attrs'.configurable = false → attrs'.enumerable = attrs.enumerable →
      (attrs.writable = false → attrs'.writable = false ∧ v'.same v) →
      Endures (.data v attrs) (.data v' attrs')

namespace Property

variable {p p' p'' : Property}

theorem Endures.refl (fixed : p.attributes.configurable = false) : p.Endures p := by
  cases p with
  | data v attrs => exact .data fixed rfl fun closed => ⟨closed, v.same_refl⟩
  | accessor getter setter attrs => exact .accessor fixed rfl

theorem Endures.trans (first : p.Endures p') (second : p'.Endures p'') : p.Endures p'' := by
  cases first with
  | accessor _ enumerable =>
    obtain ⟨fixed, enumerable'⟩ | _ := second
    exact .accessor fixed (enumerable'.trans enumerable)
  | data _ enumerable value =>
    cases second with
    | data fixed enumerable' value' =>
      refine .data fixed (enumerable'.trans enumerable) fun closed => ?_
      obtain ⟨closed', same⟩ := value closed
      obtain ⟨closed'', same'⟩ := value' closed'
      exact ⟨closed'', Value.same_trans same' same⟩

theorem Endures.fixed (endures : p.Endures p') : p'.attributes.configurable = false := by
  cases endures with
  | accessor fixed _ => exact fixed
  | data fixed _ _ => exact fixed

/-- What the checks on a property that is not configurable let pass. -/
structure Admits (p : Property) (d : Descriptor) : Prop where
  configurable : d.hasConfigurable = true → d.configurable = false
  enumerable : d.hasEnumerable = true → d.enumerable = p.attributes.enumerable
  kind : d.isGeneric = true ∨ d.isAccessor = p.isAccessor
  fixed : p.fixedRefusal? d = none

theorem admits_of_unrefused {d : Descriptor} (fixed : p.attributes.configurable = false)
    (passed : p.refusal? d = none) : p.Admits d := by
  unfold refusal? at passed
  simp only [fixed, Bool.false_eq_true, if_false] at passed
  split_ifs at passed with configurable enumerable kind
  refine ⟨fun given => ?_, fun given => ?_, ?_, passed⟩
  · simpa [given] using configurable
  · simpa [given] using enumerable
  · cases generic : d.isGeneric with
    | true => exact .inl rfl
    | false => exact .inr (by simpa [generic] using kind)

theorem Admits.endures {d : Descriptor} (admits : p.Admits d)
    (fixed : p.attributes.configurable = false) : p.Endures (p.merge d) := by
  have configurable : (if d.hasConfigurable then d.configurable else p.attributes.configurable)
      = false := by
    split
    next given => exact admits.configurable given
    next => exact fixed
  have enumerable : (if d.hasEnumerable then d.enumerable else p.attributes.enumerable)
      = p.attributes.enumerable := by
    split
    next given => exact admits.enumerable given
    next => rfl
  have checks := admits.fixed
  cases p with
  | accessor getter setter attrs =>
    -- The kinds agree or the descriptor names none, so the merge keeps the kind.
    have stays : (d.isAccessor || d.isGeneric) = true := by
      rcases admits.kind with generic | same
      · simp [generic]
      · simp [same, isAccessor]
    have kept : (if d.hasGetter then d.getter else getter) = getter ∧
        (if d.hasSetter then d.setter else setter) = setter := by
      have checked : (d.hasGetter = true → d.getter = getter) ∧
          (d.hasSetter = true → d.setter = setter) := by
        simpa [fixedRefusal?] using checks
      exact ⟨ite_eq_right_iff.2 checked.1, ite_eq_right_iff.2 checked.2⟩
    have merged : (accessor getter setter attrs).merge d = .accessor getter setter
        ⟨false, if d.hasEnumerable then d.enumerable else attrs.enumerable,
          if d.hasConfigurable then d.configurable else attrs.configurable⟩ := by
      simp only [merge, isAccessor, Bool.and_true, stays, if_true, accessorPart, kept,
        attributes_accessor]
    rw [merged]
    exact .accessor configurable enumerable
  | data v attrs =>
    have stays : d.isAccessor = false := by
      rcases admits.kind with generic | same
      · simpa using (Bool.and_eq_true_iff.1 generic).1
      · exact same
    have merged : (data v attrs).merge d = .data (if d.hasValue then d.value else v)
        ⟨if d.hasWritable then d.writable else attrs.writable,
          if d.hasEnumerable then d.enumerable else attrs.enumerable,
          if d.hasConfigurable then d.configurable else attrs.configurable⟩ := by
      simp [merge, isAccessor, stays, dataPart]
    rw [merged]
    refine .data configurable enumerable fun closed => ?_
    simp only [fixedRefusal?, closed, Bool.false_eq_true, if_false] at checks
    split_ifs at checks with writable value
    constructor
    · cases given : d.hasWritable <;> simp_all
    · cases given : d.hasValue <;> simp_all

theorem endures_redefine {d : Descriptor} (fixed : p.attributes.configurable = false)
    (redefined : p.redefine d = .ok p') : p.Endures p' := by
  unfold redefine at redefined
  cases checked : p.refusal? d with
  | some r =>
    rw [checked] at redefined
    cases redefined
  | none =>
    rw [checked] at redefined
    obtain rfl : p.merge d = p' := Except.ok.inj redefined
    exact (admits_of_unrefused fixed checked).endures fixed

end Property

/-- How an object can look later in its life. -/
structure Object.Endures (x x' : Object) : Prop where
  closed : x.extensible = false → x'.extensible = false
  keys : x.extensible = false → ∀ k ∈ x'.properties.keys, k ∈ x.properties.keys
  fixed : x.immutablePrototype = true → x'.immutablePrototype = true
  prototype : x.extensible = false ∨ x.immutablePrototype = true → x'.prototype = x.prototype
  property : ∀ k p, x.properties.get? k = some p → p.attributes.configurable = false →
    ∃ p', x'.properties.get? k = some p' ∧ p.Endures p'

namespace Object

variable {x x' x'' : Object}

theorem Endures.refl (x : Object) : x.Endures x where
  closed closed := closed
  keys _ _ own := own
  fixed fixed := fixed
  prototype _ := rfl
  property _ p own fixed := ⟨p, own, .refl fixed⟩

theorem Endures.trans (first : x.Endures x') (second : x'.Endures x'') : x.Endures x'' where
  closed closed := second.closed (first.closed closed)
  keys closed k own := first.keys closed k (second.keys (first.closed closed) k own)
  fixed fixed := second.fixed (first.fixed fixed)
  prototype kept :=
    (second.prototype (kept.imp first.closed first.fixed)).trans (first.prototype kept)
  property k p own fixed := by
    obtain ⟨p', own', endures⟩ := first.property k p own fixed
    obtain ⟨p'', own'', endures'⟩ := second.property k p' own' endures.fixed
    exact ⟨p'', own'', endures.trans endures'⟩

theorem endures_insert {k : PropertyKey} {q : Property}
    (known : x.extensible = false → k ∈ x.properties.keys)
    (passed : ∀ p, x.properties.get? k = some p → p.attributes.configurable = false →
      p.Endures q) : x.Endures { x with properties := x.properties.insert k q } where
  closed closed := closed
  keys closed j own := by
    have contains := (PropertyTable.contains_iff _ _).2 own
    rw [PropertyTable.contains, PropertyTable.get?_insert] at contains
    by_cases same : j = k
    · exact same ▸ known closed
    · rw [if_neg same] at contains
      exact (PropertyTable.contains_iff _ _).1 contains
  fixed fixed := fixed
  prototype _ := rfl
  property j p own fixed := by
    rw [PropertyTable.get?_insert]
    by_cases same : j = k
    · exact ⟨q, if_pos same, passed p (same ▸ own) fixed⟩
    · exact ⟨p, (if_neg same).trans own, .refl fixed⟩

theorem Change.endures {c : Context} {o : ObjectId} (change : x.Change c o x')
    (tight : x.extensible = false → x'.extensible = false) : x.Endures x' := by
  have known {k : PropertyKey} {p : Property} (own : x.properties.get? k = some p) :
      k ∈ x.properties.keys :=
    (PropertyTable.contains_iff _ _).1 (Option.isSome_iff_exists.2 ⟨p, own⟩)
  cases change with
  | redefine own redefined =>
    refine endures_insert (fun _ => known own) fun p same fixed => ?_
    obtain rfl := Option.some.inj (own.symm.trans same)
    exact Property.endures_redefine fixed redefined
  | create d fresh extensible =>
    refine endures_insert (fun closed => ?_) fun p own _ => ?_
    · rw [extensible] at closed
      cases closed
    · rw [fresh] at own
      cases own
  | @delete k q own configurable =>
    refine ⟨id, fun _ j listed => ?_, id, fun _ => rfl, fun j p stored fixed => ?_⟩
    · rw [PropertyTable.keys_erase] at listed
      exact List.mem_of_mem_filter listed
    · refine ⟨p, ?_, .refl fixed⟩
      have other : j ≠ k := by
        rintro rfl
        obtain rfl := Option.some.inj (own.symm.trans stored)
        rw [configurable] at fixed
        cases fixed
      rw [PropertyTable.get?_erase, if_neg other]
      exact stored
  | prototype _ mutable extensible _ =>
    refine ⟨id, fun _ _ => id, id, fun kept => ?_, fun _ p own fixed => ⟨p, own, .refl fixed⟩⟩
    simp [mutable, extensible] at kept
  | extensible b =>
    exact ⟨tight, fun _ _ => id, id, fun _ => rfl, fun _ p own fixed => ⟨p, own, .refl fixed⟩⟩
  | fixPrototype =>
    exact ⟨id, fun _ _ => id, fun _ => rfl, fun _ => rfl,
      fun _ p own fixed => ⟨p, own, .refl fixed⟩⟩
  | setPrivate v kind =>
    exact ⟨id, fun _ _ => id, id, fun _ => rfl, fun _ p own fixed => ⟨p, own, .refl fixed⟩⟩
  | setReserved n v kind =>
    exact ⟨id, fun _ _ => id, id, fun _ => rfl, fun _ p own fixed => ⟨p, own, .refl fixed⟩⟩

end Object

namespace Context

variable {c c' c'' : Context}

def Endures (c c' : Context) : Prop :=
  ∀ o x x', c.get? o = some x → c'.get? o = some x' → x.Endures x'

theorem Endures.trans (valid : c.heap.Valid) (ages : c.Ages c') (ages' : c'.Ages c'')
    (first : c.Endures c') (second : c'.Endures c'') : c.Endures c'' := by
  intro o x x'' found found''
  cases found' : c'.get? o with
  | some x' => exact (first o x x' found found').trans (second o x' x'' found' found'')
  | none =>
    have issued := ages.heap.issued o (valid.issued_of_live found)
    have gone : c''.get? o = none := ages'.heap.stale o issued found'
    rw [gone] at found''
    cases found''

theorem endures_of_kept (kept : ∀ o x', c'.get? o = some x' → c.isLive o → c.get? o = some x') :
    c.Endures c' := by
  intro o x x' found found'
  have same := kept o x' found' (Option.isSome_iff_exists.2 ⟨x, found⟩)
  obtain rfl := Option.some.inj (found.symm.trans same)
  exact .refl x

theorem Tightening.endures (tightening : c.Tightening c') (valid : c.heap.Valid) :
    c.Endures c' := by
  cases tightening with
  | @alloc p heap kind prototype stored =>
    -- The new handle was dead before, so it is none of those that are live on both sides.
    refine endures_of_kept fun o x' found' live => ?_
    have other : o ≠ p := by
      rintro rfl
      have dead := valid.alloc_fresh stored
      simp [isLive, Heap.isLive, dead] at live
    have found' : heap.get? o = some x' := found'
    rwa [valid.get?_alloc stored, if_neg other] at found'
  | @change p y f found change tight =>
    intro o x x' before after
    have after : (c.heap.modify p f).get? o = some x' := after
    rw [Heap.get?_modify] at after
    split at after
    next same =>
      subst same
      obtain rfl := Option.some.inj (found.symm.trans before)
      have before : c.heap.get? o = some y := before
      rw [before] at after
      obtain rfl := Option.some.inj after
      exact change.endures tight
    next =>
      obtain rfl := Option.some.inj (Eq.trans (Eq.symm before) after)
      exact .refl x
  | rest _ heap =>
    refine endures_of_kept fun o x' found' _ => ?_
    rwa [get?, heap] at found'

theorem Tightens.endures (tightens : c.Tightens c') (valid : c.heap.Valid) : c.Endures c' := by
  induction tightens with
  | refl => exact endures_of_kept fun _ _ found _ => found
  | @tail b d before step ih =>
    have ages := (Tightens.edits before).reaches.ages valid
    exact Endures.trans valid ages (step.edit.edits.reaches.ages ages.heap.valid) ih
      (step.endures ages.heap.valid)

theorem endures_sweep (c : Context) (dead : List ObjectId) (marked : Nat) :
    c.Endures ((c.releaseAll dead).2.recordCollection marked (c.releaseAll dead).1) := by
  refine endures_of_kept fun o x' found _ => ?_
  have found : (c.releaseAll dead).2.get? o = some x' := found
  rw [releaseAll_get?] at found
  split at found
  · cases found
  · exact found

end Context

def Request.Reopens : Request → Prop
  | act a => a.Reopens
  | _ => False

theorem Request.Builtin.closed {r : Request} (builtin : r.Builtin) : ¬ r.Reopens := by
  intro reopens
  cases r with
  | act a =>
    cases a with
    | storeExtensible o extensible =>
      have shut : extensible = false := builtin
      rw [shut] at reopens
      cases reopens
    | _ => exact reopens
  | _ => exact reopens

namespace Engine

variable {σ α : Type} {F : Foreign σ}

theorem law_endures : Law (fun r => ¬ r.Reopens) fun p q =>
    p.context.heap.Valid → p.context.Ages q.context ∧ p.context.Endures q.context where
  builtin _ builtin := builtin.closed
  refl _ valid := ⟨Context.ages_refl valid, (Context.Tightens.refl _).endures valid⟩
  trans first second valid := by
    obtain ⟨ages, endures⟩ := first valid
    obtain ⟨ages', endures'⟩ := second ages.heap.valid
    exact ⟨ages.trans valid ages', endures.trans valid ages ages' endures'⟩
  act closed ran valid := by
    have tightens := Action.tightens closed ran
    exact ⟨tightens.edits.reaches.ages valid, tightens.endures valid⟩
  below related := related
  enter room valid := by
    refine ⟨(Context.Step.enter room).ages valid, ?_⟩
    exact (Context.Tightens.refl _).endures valid
  leave _ _ valid := by
    refine ⟨Context.Step.leave.ages valid, ?_⟩
    exact (Context.Tightens.refl _).endures valid
  sweep c dead marked valid :=
    ⟨(Context.Step.sweep dead marked).ages valid, c.endures_sweep dead marked⟩

/-- Along every run, from its start to its end, what is live endures: between any two
moments, whatever foreign code ran and however often was collected. -/
theorem run_endures (foreign : F.Only fun r => ¬ r.Reopens) (fuel : Nat) {p : Program σ α}
    (only : p.Only fun r => ¬ r.Reopens) {m : Machine σ} (reachable : m.context.Reachable) :
    History.Follows (fun q r => q.context.Endures r.context) m
      (runHistory F fuel p m) (run F fuel p m) := by
  -- The law is about valid heaps; that they stay valid is the ageing it carries along.
  have follows := law_endures.follows_run foreign fuel only m
  have valid : ∀ q ∈ m.place :: (runHistory F fuel p m).places, q.context.heap.Valid := by
    intro q here
    rcases List.mem_cons.1 here with rfl | late
    · exact reachable.valid
    · have related := (List.pairwise_cons.1 follows.along).1 q late
      exact (related reachable.valid).1.heap.valid
  exact ⟨follows.along.imp_of_mem fun here _ related => (related (valid _ here)).2,
    fun a m' ended q here => (follows.last ended q here (valid q here)).2⟩

def hardening : Program Unit (Fallible Outcome) := do
  let o ← Program.newObject
  discard <| Program.perform (.defineProperty o (.index 0) (.ofData .null .frozen))
  discard <| Program.perform (.preventExtensions o)
  Program.perform (.defineProperty o (.index 0) (.valueOnly .undefined))

theorem hardening_endures : ∃ m',
    run Foreign.idle 2 hardening ⟨Context.create {}, ()⟩ = .ok (.ok (.refused .readOnly), m') ∧
      History.Follows (fun q r => q.context.Endures r.context) ⟨Context.create {}, ()⟩
        (runHistory Foreign.idle 2 hardening ⟨Context.create {}, ()⟩)
        (run Foreign.idle 2 hardening ⟨Context.create {}, ()⟩) := by
  have foreign : (Foreign.idle (σ := Unit)).Only fun r => ¬ r.Reopens :=
    ⟨fun _ _ _ => .done _, fun _ _ => .done _, fun _ _ _ => .done _, fun _ => .done _,
      fun _ _ _ _ _ => .done _, fun _ => .done _⟩
  have only : hardening.Only fun r => ¬ r.Reopens :=
    .ask id fun _ => .ask id fun _ => .ask id fun _ => .ask id fun _ => .done _
  refine ⟨_, rfl, run_endures foreign 2 only ⟨{}, ?_⟩⟩
  exact .refl

end Engine

end ProxyEngine
