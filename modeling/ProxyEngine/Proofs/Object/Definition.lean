import ProxyEngine.Descriptor.Field
import ProxyEngine.Proofs.Object.Assignment
import ProxyEngine.Proofs.Object.Permanence

/-! Defining properties of ordinary objects. A definition is refused for a reason that
concerns a property which is not configurable, or because a new property comes too late.
Accepted, it is told field by field: what the descriptor has is taken, the rest stays as
long as the property does not change its kind. Defining the same again is accepted and
shows no difference. -/

namespace ProxyEngine

open Descriptor (Field)

variable {σ : Type}

def Descriptor.blank (f : Field) : Value :=
  ({} : Descriptor).content f

namespace Property

def has (p : Property) (f : Field) : Bool :=
  p.toDescriptor.has f

def content (p : Property) (f : Field) : Value :=
  p.toDescriptor.content f

/-- Whether the property is an accessor once `d` was applied. A descriptor with one of the
functions makes it one, whatever else it says; a generic descriptor keeps the kind. -/
def kindUnder (p : Property) (d : Descriptor) : Bool :=
  if d.isGeneric then p.isAccessor else d.isAccessor

/-- What is left of the field of a property that becomes, or stays, an accessor or not. -/
def remains (p : Property) (accessor : Bool) (f : Field) : Value :=
  if p.isAccessor = accessor ∨ f = .configurable ∨ f = .enumerable then p.content f
  else Descriptor.blank f

/-- The reasons why `d` may not be applied to `p`, which is not configurable. What an
accessor descriptor has besides its functions and the two attributes is no reason. -/
inductive Clashes (p : Property) (d : Descriptor) : Refusal → Prop
  | configurable : p.attributes.configurable = false → d.isConfigurable = true →
      Clashes p d .cantRedefineProperty
  | enumerable : p.attributes.configurable = false → d.hasEnumerable = true →
      d.enumerable ≠ p.attributes.enumerable → Clashes p d .cantRedefineProperty
  | kind : p.attributes.configurable = false → d.isGeneric = false →
      d.isAccessor ≠ p.isAccessor → Clashes p d .cantRedefineProperty
  | function {f : Field} : p.attributes.configurable = false → p.isAccessor = true →
      f = .get ∨ f = .set → d.has f = true → d.content f ≠ p.content f →
      Clashes p d .cantRedefineProperty
  | writable : p.attributes.configurable = false → p.isAccessor = false →
      p.attributes.writable = false → d.isAccessor = false → d.isWritable = true →
      Clashes p d .cantRedefineProperty
  | value : p.attributes.configurable = false → p.isAccessor = false →
      p.attributes.writable = false → d.isAccessor = false → d.hasValue = true →
      d.value.same (p.content .value) = false → Clashes p d .readOnly

/-- The property is an accessor or not, as told, and has the fields of `d` and, where `d`
has none, those of `rest`. -/
structure Fills (d : Descriptor) (accessor : Bool) (rest : Field → Value) (p : Property) :
    Prop where
  kind : p.isAccessor = accessor
  content : ∀ f, p.has f = true → p.content f = if d.has f then d.content f else rest f

variable {p q : Property} {d : Descriptor} {r : Refusal}

/-! What is in the fields. -/

theorem content_configurable (p : Property) :
    p.content .configurable = .boolean p.attributes.configurable := by
  cases p <;> rfl

theorem content_enumerable (p : Property) :
    p.content .enumerable = .boolean p.attributes.enumerable := by
  cases p <;> rfl

theorem remains_value (p : Property) : p.remains false .value = p.dataPart.1 := by
  cases p <;> rfl

theorem remains_writable (p : Property) : p.remains false .writable = .boolean p.dataPart.2 := by
  cases p <;> rfl

theorem remains_get (p : Property) : p.remains true .get = .objectOrNull p.accessorPart.1 := by
  cases p <;> rfl

theorem remains_set (p : Property) : p.remains true .set = .objectOrNull p.accessorPart.2 := by
  cases p <;> rfl

theorem toDescriptor_ext (kind : p.isAccessor = q.isAccessor)
    (fields : ∀ f, p.has f = true → p.content f = q.content f) :
    p.toDescriptor = q.toDescriptor := by
  have configurable := fields .configurable (by cases p <;> rfl)
  have enumerable := fields .enumerable (by cases p <;> rfl)
  rw [content_configurable, content_configurable, Value.boolean_inj] at configurable
  rw [content_enumerable, content_enumerable, Value.boolean_inj] at enumerable
  cases p with
  | data v attrs =>
    obtain ⟨w, attrs'⟩ | _ := q
    · have value : v = w := fields .value rfl
      have writable := Value.boolean_inj.1 (fields .writable rfl)
      simp_all [toDescriptor, Descriptor.ofData]
    · cases kind
  | accessor g s attrs =>
    obtain _ | ⟨g', s', attrs'⟩ := q
    · cases kind
    · have getter := Value.objectOrNull_inj.1 (fields .get rfl)
      have setter := Value.objectOrNull_inj.1 (fields .set rfl)
      simp_all [toDescriptor, Descriptor.ofAccessor]

/-! What the two halves of a redefinition come to. -/

theorem merge_of_accessor (p : Property) (accessor : p.kindUnder d = true) :
    p.merge d = .accessor (if d.hasGetter then d.getter else p.accessorPart.1)
      (if d.hasSetter then d.setter else p.accessorPart.2)
      ⟨false, if d.hasEnumerable then d.enumerable else p.attributes.enumerable,
        if d.hasConfigurable then d.configurable else p.attributes.configurable⟩ := by
  refine if_pos ?_
  unfold kindUnder at accessor
  split at accessor
  next generic => simp [generic, accessor]
  next => simp [accessor]

theorem merge_of_data (p : Property) (data : p.kindUnder d = false) :
    p.merge d = .data (if d.hasValue then d.value else p.dataPart.1)
      ⟨if d.hasWritable then d.writable else p.dataPart.2,
        if d.hasEnumerable then d.enumerable else p.attributes.enumerable,
        if d.hasConfigurable then d.configurable else p.attributes.configurable⟩ := by
  refine if_neg ?_
  unfold kindUnder at data
  split at data
  next generic =>
    have bare : d.isAccessor = false := by simpa using (Bool.and_eq_true_iff.1 generic).1
    simp [bare, data]
  next generic => simp [generic, data]

theorem remains_attribute (p : Property) (accessor : Bool) :
    p.remains accessor .configurable = .boolean p.attributes.configurable ∧
      p.remains accessor .enumerable = .boolean p.attributes.enumerable := by
  simp [remains, content_configurable, content_enumerable]

theorem fills_merge (p : Property) (d : Descriptor) :
    Fills d (p.kindUnder d) (p.remains (p.kindUnder d)) (p.merge d) := by
  cases kind : p.kindUnder d with
  | true =>
    rw [p.merge_of_accessor kind]
    refine ⟨rfl, fun f own => ?_⟩
    obtain ⟨configurable, enumerable⟩ := p.remains_attribute true
    cases f with
    | configurable => rw [configurable]; exact apply_ite Value.boolean ..
    | enumerable => rw [enumerable]; exact apply_ite Value.boolean ..
    | get => rw [remains_get]; exact apply_ite Value.objectOrNull ..
    | set => rw [remains_set]; exact apply_ite Value.objectOrNull ..
    | _ => cases own
  | false =>
    rw [p.merge_of_data kind]
    refine ⟨rfl, fun f own => ?_⟩
    obtain ⟨configurable, enumerable⟩ := p.remains_attribute false
    cases f with
    | configurable => rw [configurable]; exact apply_ite Value.boolean ..
    | enumerable => rw [enumerable]; exact apply_ite Value.boolean ..
    | writable => rw [remains_writable]; exact apply_ite Value.boolean ..
    | value => rw [remains_value]; rfl
    | _ => cases own

theorem fills_ofDescriptor (d : Descriptor) :
    Fills d d.isAccessor Descriptor.blank (.ofDescriptor d) := by
  have present (given has : Bool) : Value.boolean (has && given) =
      if has then Value.boolean given else Value.boolean false := by
    cases has <;> rfl
  unfold ofDescriptor
  cases kind : d.isAccessor with
  | true =>
    refine ⟨rfl, fun f own => ?_⟩
    cases f with
    | configurable => exact present d.configurable _
    | enumerable => exact present d.enumerable _
    | get => exact apply_ite Value.objectOrNull ..
    | set => exact apply_ite Value.objectOrNull ..
    | _ => cases own
  | false =>
    refine ⟨rfl, fun f own => ?_⟩
    cases f with
    | configurable => exact present d.configurable _
    | enumerable => exact present d.enumerable _
    | writable => exact present d.writable _
    | value => rfl
    | _ => cases own

theorem clashes_of_fixedRefusal (fixed : p.attributes.configurable = false)
    (kind : d.isGeneric = true ∨ d.isAccessor = p.isAccessor)
    (refused : p.fixedRefusal? d = some r) : p.Clashes d r := by
  cases p with
  | accessor g s attrs =>
    simp only [fixedRefusal?] at refused
    split at refused
    next other =>
      cases refused
      have other : d.hasGetter = true ∧ d.getter ≠ g ∨ d.hasSetter = true ∧ d.setter ≠ s := by
        simpa using other
      rcases other with ⟨has, other⟩ | ⟨has, other⟩
      · exact .function fixed rfl (.inl rfl) has (mt Value.objectOrNull_inj.1 other)
      · exact .function fixed rfl (.inr rfl) has (mt Value.objectOrNull_inj.1 other)
    next => cases refused
  | data v attrs =>
    have bare : d.isAccessor = false :=
      kind.elim (fun generic => by simpa using (Bool.and_eq_true_iff.1 generic).1) id
    simp only [fixedRefusal?] at refused
    split_ifs at refused with locked writable value
    · cases refused
      exact .writable fixed rfl (by simpa using locked) bare writable
    · cases refused
      obtain ⟨has, other⟩ := Bool.and_eq_true_iff.1 value
      have other : d.value.same v = false := by simpa using other
      exact .value fixed rfl (by simpa using locked) bare has other

theorem clashes_of_refusal (refused : p.refusal? d = some r) : p.Clashes d r := by
  simp only [refusal?] at refused
  split_ifs at refused with free configurable enumerable kind
  all_goals have fixed : p.attributes.configurable = false := by simpa using free
  · cases refused
    exact .configurable fixed configurable
  · cases refused
    obtain ⟨has, changed⟩ := Bool.and_eq_true_iff.1 enumerable
    exact .enumerable fixed has (by simpa using changed)
  · cases refused
    obtain ⟨tells, turned⟩ := Bool.and_eq_true_iff.1 kind
    exact .kind fixed (by simpa using tells) (by simpa using turned)
  · refine clashes_of_fixedRefusal fixed ?_ refused
    simpa [or_iff_not_imp_left] using kind

theorem not_clashes_of_passed (passed : p.refusal? d = none) : ¬ p.Clashes d r := by
  have admits (fixed : p.attributes.configurable = false) := admits_of_unrefused fixed passed
  intro clash
  cases clash with
  | configurable fixed asked =>
    obtain ⟨has, asked⟩ := Bool.and_eq_true_iff.1 asked
    exact absurd asked (by simp [(admits fixed).configurable has])
  | enumerable fixed has changed => exact changed ((admits fixed).enumerable has)
  | kind fixed tells turned =>
    exact (admits fixed).kind.elim (fun generic => by simp [generic] at tells) turned
  | function fixed accessor function has other =>
    have checks := (admits fixed).fixed
    obtain _ | ⟨g, s, attrs⟩ := p
    · cases accessor
    · have checked : (d.hasGetter = true → d.getter = g) ∧ (d.hasSetter = true → d.setter = s) := by
        simpa [fixedRefusal?] using checks
      rcases function with rfl | rfl
      · exact other (congrArg Value.objectOrNull (checked.1 has))
      · exact other (congrArg Value.objectOrNull (checked.2 has))
  | writable fixed data closed _ opened =>
    have checks := (admits fixed).fixed
    obtain ⟨v, attrs⟩ | _ := p
    · simp [fixedRefusal?, show attrs.writable = false from closed,
        Bool.and_eq_true_iff.1 opened] at checks
    · cases data
  | value fixed data closed _ has other =>
    have checks := (admits fixed).fixed
    obtain ⟨v, attrs⟩ | _ := p
    · have other : d.value.same v = false := other
      have closed : attrs.writable = false := closed
      simp [fixedRefusal?, closed, has, other] at checks
      split at checks <;> cases checks
    · cases data

theorem has_of_kind (same : p.isAccessor = q.isAccessor) (f : Field) : p.has f = q.has f := by
  cases p <;> cases q <;> cases same <;> cases f <;> rfl

theorem Fills.merge_look {rest : Field → Value} {accessor : Bool}
    (fills : p.Fills d accessor rest) (settled : p.kindUnder d = accessor) :
    (p.merge d).toDescriptor = p.toDescriptor := by
  obtain ⟨kind, content⟩ := p.fills_merge d
  have same : (p.merge d).isAccessor = p.isAccessor := (kind.trans settled).trans fills.kind.symm
  refine toDescriptor_ext same fun f own => ?_
  have before := fills.content f ((has_of_kind same f).symm.trans own)
  rw [content f own]
  split
  next given => rw [before, if_pos given]
  next =>
    -- The kind is not changed a second time, so nothing falls back to what is blank.
    exact if_pos (.inl (fills.kind.trans settled.symm))

theorem Fills.not_clashes {rest : Field → Value} {accessor : Bool} (fills : p.Fills d accessor rest)
    (same : p.kindUnder d = accessor) : ¬ p.Clashes d r := by
  have taken (f : Field) (own : p.has f = true) (has : d.has f = true) :
      p.content f = d.content f :=
    (fills.content f own).trans (if_pos has)
  intro clash
  cases clash with
  | configurable fixed asked =>
    obtain ⟨has, asked⟩ := Bool.and_eq_true_iff.1 asked
    have given := taken .configurable (by cases p <;> rfl) has
    rw [content_configurable, fixed] at given
    exact absurd (Value.boolean_inj.1 given) (by simp [asked])
  | enumerable fixed has changed =>
    have given := taken .enumerable (by cases p <;> rfl) has
    rw [content_enumerable] at given
    exact changed (Value.boolean_inj.1 given).symm
  | kind fixed tells turned =>
    rw [kindUnder, if_neg (by simp [tells]), ← fills.kind] at same
    exact turned same
  | function fixed accessor function has other =>
    refine other (taken _ ?_ has).symm
    obtain _ | _ := p
    · cases accessor
    · rcases function with rfl | rfl <;> rfl
  | writable fixed data closed _ opened =>
    obtain ⟨has, opened⟩ := Bool.and_eq_true_iff.1 opened
    obtain ⟨v, attrs⟩ | _ := p
    · have given := Value.boolean_inj.1 (taken .writable rfl has)
      exact absurd (given.symm.trans closed) (by simp [opened])
    · cases data
  | value fixed data closed _ has other =>
    obtain ⟨v, attrs⟩ | _ := p
    · rw [taken .value rfl has] at other
      exact Bool.false_ne_true (other.symm.trans (Value.same_refl d.value))
    · cases data

end Property

/-! The stored object. -/

namespace Context

/-- What defining `k` on `o` by `d` answers on the context `c`, and what it leaves behind. -/
inductive Defines (c : Context) (o : ObjectId) (k : PropertyKey) (d : Descriptor) :
    Outcome → Context → Prop
  | create {p : Property} {c' : Context} : c.ownProperty? o k = none →
      c.storedExtensible o = true → p.Fills d d.isAccessor Descriptor.blank → c.Stores o k p c' →
      Defines c o k d .ok c'
  | late : c.ownProperty? o k = none → c.storedExtensible o = false →
      Defines c o k d (.refused .notExtensible) c
  | clash {current : Property} {why : Refusal} : c.ownProperty? o k = some current →
      current.Clashes d why → Defines c o k d (.refused why) c
  | merge {current p : Property} {c' : Context} : c.ownProperty? o k = some current →
      (∀ why, ¬ current.Clashes d why) →
      p.Fills d (current.kindUnder d) (current.remains (current.kindUnder d)) →
      c.Stores o k p c' → Defines c o k d .ok c'

/-- `c'` shows what `c` shows: if it differs at all, then in a property of `o` under `k` whose
fields are the same. -/
structure Repeats (c : Context) (o : ObjectId) (k : PropertyKey) (c' : Context) : Prop where
  stores : ∃ p, c.Stores o k p c'
  keys : c'.ownKeys o = c.ownKeys o
  look : ∀ k', c'.ownDescriptor? o k' = c.ownDescriptor? o k'

variable {c c' : Context} {o : ObjectId} {k : PropertyKey} {d : Descriptor} {p q : Property}

theorem Stores.ownProperty? (stores : c.Stores o k p c') (k' : PropertyKey) :
    c'.ownProperty? o k' = if k' = k then some p else c.ownProperty? o k' := by
  obtain ⟨x, t, found, changed, lookup, -⟩ := stores.object
  rw [Context.ownProperty?, changed, Context.ownProperty?, found]
  exact lookup k'

theorem Stores.ownKeys_of_known (stores : c.Stores o k q c') (known : c.ownProperty? o k = some p) :
    c'.ownKeys o = c.ownKeys o := by
  obtain ⟨x, t, found, changed, -, keys⟩ := stores.object
  have stored : x.properties.get? k = some p := by rwa [Context.ownProperty?, found] at known
  rw [if_pos (show x.properties.contains k = true by simp [PropertyTable.contains, stored])] at keys
  simp [ownKeys, changed, found, PropertyTable.orderedKeys, keys]

theorem Defines.stored {out : Outcome} (defines : c.Defines o k d out c') (accepted : out = .ok) :
    ∃ p accessor rest, Property.Fills d accessor rest p ∧ p.kindUnder d = accessor ∧
      c.Stores o k p c' := by
  cases defines with
  | create _ _ fills stores =>
    exact ⟨_, _, _, fills, by simp [Property.kindUnder, fills.kind], stores⟩
  | late => cases (congrArg Outcome.isOk accepted).symm
  | clash => cases ((Outcome.isOk_refused _).symm.trans (congrArg Outcome.isOk accepted))
  | merge _ _ fills stores =>
    refine ⟨_, _, _, fills, ?_, stores⟩
    rw [Property.kindUnder, fills.kind, Property.kindUnder]
    split <;> rfl

theorem Stores.repeats (stores : c.Stores o k q c') (known : c.ownProperty? o k = some p)
    (same : q.toDescriptor = p.toDescriptor) : c.Repeats o k c' where
  stores := ⟨q, stores⟩
  keys := stores.ownKeys_of_known known
  look k' := by
    rw [ownDescriptor?, stores.ownProperty?, ownDescriptor?]
    split
    next here => rw [here, known, Option.map_some, Option.map_some, same]
    next => rfl

end Context

namespace Update

open Context

variable {c c' : Context} {o : ObjectId} {x : Object}

theorem defineStored_defines (found : c.get? o = some x) (k : PropertyKey) (d : Descriptor) :
    ∃ out c', defineStored o k d c = some (out, c') ∧ c.Defines o k d out c' := by
  have own : c.ownProperty? o k = x.properties.get? k := by rw [ownProperty?, found]; rfl
  cases stored : x.properties.get? k with
  | none =>
    have extensible : c.storedExtensible o = x.extensible := by rw [storedExtensible, found]; rfl
    have defined := defineStored_fresh (d := d) found stored
    rw [stored] at own
    cases ext : x.extensible with
    | true =>
      exact ⟨_, _, defined.trans (if_pos ext), .create own (extensible.trans ext)
        (Property.fills_ofDescriptor d) (stores_insert found k _)⟩
    | false =>
      exact ⟨_, _, defined.trans (if_neg (by simp [ext])), .late own (extensible.trans ext)⟩
  | some current =>
    rw [stored] at own
    cases checked : current.refusal? d with
    | some why =>
      have clashing : current.redefine d = .error why := by rw [Property.redefine, checked]
      exact ⟨_, _, defineStored_clashing found stored clashing,
        .clash own (Property.clashes_of_refusal checked)⟩
    | none =>
      have redefined : current.redefine d = .ok (current.merge d) := by
        rw [Property.redefine, checked]
      exact ⟨_, _, defineStored_redefined found stored redefined,
        .merge own (fun _ => Property.not_clashes_of_passed checked) (current.fills_merge d)
          (stores_insert found k _)⟩

theorem defineStored_again {k : PropertyKey} {d : Descriptor} (defines : c.Defines o k d .ok c') :
    ∃ c'', defineStored o k d c' = some (.ok, c'') ∧ c'.Repeats o k c'' := by
  obtain ⟨p, accessor, rest, fills, settled, stores⟩ := defines.stored rfl
  have known : c'.ownProperty? o k = some p := (stores.ownProperty? k).trans (if_pos rfl)
  obtain ⟨x, t, -, found, -, -⟩ := stores.object
  have stored : t.get? k = some p := by rwa [ownProperty?, found] at known
  have unrefused : p.refusal? d = none := by
    cases checked : p.refusal? d with
    | none => rfl
    | some why => exact absurd (Property.clashes_of_refusal checked) (fills.not_clashes settled)
  have redefined : p.redefine d = .ok (p.merge d) := by rw [Property.redefine, unrefused]
  exact ⟨_, defineStored_redefined found stored redefined,
    (stores_insert found k _).repeats known (fills.merge_look settled)⟩

end Update

namespace Engine

variable {F : Foreign σ} {m : Machine σ} {o : ObjectId} {x : Object}

/-- Defining a property of an ordinary object validates the descriptor and applies it, and
what it accepted it accepts again. -/
theorem define_validates (F : Foreign σ) (k : PropertyKey) (d : Descriptor)
    (found : m.context.get? o = some x) (other : x.proxy? = none) :
    ∃ out c', (∀ fuel, issue F (fuel + 2) (.defineProperty o k d) m =
        .ok (.ok out, { m with context := c' })) ∧
      m.context.Defines o k d out c' ∧
      (out = .ok → ∃ c'', (∀ fuel,
          issue F (fuel + 2) (.defineProperty o k d) { m with context := c' } =
            .ok (.ok .ok, { m with context := c'' })) ∧
        c'.Repeats o k c'') := by
  obtain ⟨out, c', stored, defines⟩ := Update.defineStored_defines found k d
  have ends {c₁ c₂ : Context} {x : Object} {out : Outcome} (found : c₁.get? o = some x)
      (other : x.proxy? = none) (stored : Update.defineStored o k d c₁ = some (out, c₂))
      (fuel : Nat) : issue F (fuel + 2) (.defineProperty o k d) { m with context := c₁ } =
        .ok (.ok out, { m with context := c₂ }) := by
    rw [issue_defineProperty fuel d found other, Run.update_map]
    exact Run.map_of_ok (Run.update_of_some stored)
  refine ⟨out, c', ends found other stored, defines, fun accepted => ?_⟩
  subst accepted
  obtain ⟨c'', again, repeats⟩ := Update.defineStored_again defines
  obtain ⟨y, found', other'⟩ : ∃ y, c'.get? o = some y ∧ y.proxy? = none := by
    obtain ⟨p, _, _, -, -, stores⟩ := defines.stored rfl
    obtain ⟨x', t, found', changed, -, -⟩ := stores.object
    obtain rfl := Option.some.inj (found.symm.trans found')
    exact ⟨_, changed, other⟩
  exact ⟨c'', ends found' other' again, repeats⟩

def blank : Update ObjectId :=
  Update.newObject none

theorem blank_validates : ∃ o c, blank (Context.create {}) = some (o, c) ∧
    ∃ out c', (∀ fuel, issue Foreign.idle (fuel + 2)
        (.defineProperty o (.index 0) { Descriptor.ofData .null with hasGetter := true }) ⟨c, ()⟩ =
          .ok (.ok out, ⟨c', ()⟩)) ∧
      c.Defines o (.index 0) { Descriptor.ofData .null with hasGetter := true } out c' ∧
      (out = .ok → ∃ c'', (∀ fuel, issue Foreign.idle (fuel + 2)
          (.defineProperty o (.index 0) { Descriptor.ofData .null with hasGetter := true })
          ⟨c', ()⟩ = .ok (.ok .ok, ⟨c'', ()⟩)) ∧
        c'.Repeats o (.index 0) c'') := by
  obtain ⟨⟨o, c⟩, ran⟩ : ∃ r, blank (Context.create {}) = some r := ⟨_, rfl⟩
  obtain ⟨x, found, other⟩ : ∃ x, c.get? o = some x ∧ x.proxy? = none := by
    cases ran
    exact ⟨_, rfl, rfl⟩
  exact ⟨o, c, ran, define_validates (m := ⟨c, ()⟩) Foreign.idle (.index 0)
    { Descriptor.ofData .null with hasGetter := true } found other⟩

end Engine

end ProxyEngine
