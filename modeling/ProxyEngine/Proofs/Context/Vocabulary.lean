import ProxyEngine.Behaviour.Ordinary
import ProxyEngine.Program
import ProxyEngine.Proofs.Atom
import ProxyEngine.Proofs.Context.Ageing
import ProxyEngine.Proofs.Context.Primitives

/-! The texts of a context. Interned texts are never given up, so what may be added to them
matters. Every action is told by the texts it may intern; those that make no function leave
the sources of the functions there are as they were, and with them what may be interned
later on. -/

namespace ProxyEngine

/-- The texts that the engine interns by itself, whatever there is on the context. -/
def fixedTexts : List String :=
  ["name", "prototype", nativeSource ""] ++ ErrorKind.all.map ErrorKind.name

namespace Context

/-- The text is the source of some function on the context. -/
def Quotes (c : Context) (s : String) : Prop :=
  ∃ o code name isConstructor, c.function? o = some (code, name, isConstructor) ∧
    s = nativeSource (c.atomText name)

def sources (c : Context) : List String :=
  c.heap.ids.filterMap fun o =>
    (c.function? o).map fun (_, name, _) => nativeSource (c.atomText name)

structure Literate (c : Context) : Prop where
  valid : c.heap.Valid
  named : ∀ o code name isConstructor, c.function? o = some (code, name, isConstructor) →
    (c.atoms.get? name).isSome

/-- The context later on, with new texts that are in `T` or sources of functions that were
there, and without new functions. -/
structure Grown (T : String → Prop) (c c' : Context) : Prop where
  literate : c'.Literate
  functions : ∀ o f, c'.function? o = some f → c.function? o = some f
  texts : ∃ new, c'.atoms.texts = c.atoms.texts ++ new ∧ new.Nodup ∧
    ∀ s ∈ new, s ∉ c.atoms.texts ∧ (T s ∨ c.Quotes s)

def Grows (T : String → Prop) (c c' : Context) : Prop :=
  c.Literate → c.Grown T c'

variable {T T' : String → Prop} {c c' c'' : Context} {o : ObjectId} {x : Object} {s : String}

theorem function?_eq (c : Context) (o : ObjectId) :
    c.function? o = (c.get? o).bind Object.function? := rfl

theorem mem_sources : s ∈ c.sources ↔ c.Quotes s := by
  simp only [sources, List.mem_filterMap, Heap.mem_ids, Option.map_eq_some_iff]
  constructor
  · rintro ⟨o, -, ⟨code, name, isConstructor⟩, found, rfl⟩
    exact ⟨o, code, name, isConstructor, found, rfl⟩
  · rintro ⟨o, code, name, isConstructor, found, rfl⟩
    obtain ⟨x, own, -⟩ := Option.bind_eq_some_iff.1 ((function?_eq c o).symm.trans found)
    exact ⟨o, Option.isSome_iff_exists.2 ⟨x, own⟩, _, found, rfl⟩

theorem atomText_of_append {new : List String} {a : Atom}
    (more : c'.atoms.texts = c.atoms.texts ++ new) (known : (c.atoms.get? a).isSome) :
    c'.atomText a = c.atomText a := by
  obtain ⟨s, found⟩ := Option.isSome_iff_exists.1 known
  rw [atomText, atomText, found, AtomTable.get?_of_append more found]

theorem Grown.quotes (grown : c.Grown T c') (literate : c.Literate) (quotes : c'.Quotes s) :
    c.Quotes s := by
  obtain ⟨o, code, name, isConstructor, found, rfl⟩ := quotes
  obtain ⟨new, more, -⟩ := grown.texts
  have before := grown.functions o _ found
  refine ⟨o, code, name, isConstructor, before, ?_⟩
  rw [atomText_of_append more (literate.named o _ _ _ before)]

theorem Grown.mono (grown : c.Grown T c') (implies : ∀ s, T s → T' s ∨ c.Quotes s) :
    c.Grown T' c' where
  literate := grown.literate
  functions := grown.functions
  texts := by
    obtain ⟨new, more, nodup, reasons⟩ := grown.texts
    refine ⟨new, more, nodup, fun s here => ⟨(reasons s here).1, ?_⟩⟩
    exact (reasons s here).2.elim (implies s) .inr

theorem Grown.trans (literate : c.Literate) (first : c.Grown T c') (second : c'.Grown T c'') :
    c.Grown T c'' where
  literate := second.literate
  functions o f found := first.functions o f (second.functions o f found)
  texts := by
    obtain ⟨new, more, nodup, reasons⟩ := first.texts
    obtain ⟨new', more', nodup', reasons'⟩ := second.texts
    refine ⟨new ++ new', by rw [more', more, List.append_assoc], ?_, fun s here => ?_⟩
    · refine List.nodup_append.2 ⟨nodup, nodup', fun s early s' late same => ?_⟩
      refine (reasons' s' late).1 ?_
      rw [more, ← same]
      exact List.mem_append_right _ early
    · rcases List.mem_append.1 here with early | late
      · exact reasons s early
      · obtain ⟨fresh, reason⟩ := reasons' s late
        refine ⟨fun old => fresh ?_, reason.imp_right (first.quotes literate)⟩
        rw [more]
        exact List.mem_append_left _ old

theorem Literate.grown (literate : c.Literate) (valid : c'.heap.Valid)
    (functions : ∀ o f, c'.function? o = some f → c.function? o = some f)
    (atoms : c'.atoms = c.atoms) : c.Grown T c' where
  literate := ⟨valid, fun o code name isConstructor found => by
    rw [atoms]
    exact literate.named o code name isConstructor (functions o _ found)⟩
  functions := functions
  texts := ⟨[], by rw [atoms, List.append_nil], List.nodup_nil, nofun⟩

theorem Literate.rest (literate : c.Literate) (heap : c'.heap = c.heap)
    (atoms : c'.atoms = c.atoms) : c.Grown T c' := by
  refine literate.grown (heap ▸ literate.valid) (fun o f found => ?_) atoms
  rwa [function?, get?, heap] at found

theorem Literate.alloc (literate : c.Literate) {heap : Heap} (plain : x.function? = none)
    (stored : c.heap.alloc? x = some (o, heap)) : c.Grown T { c with heap } := by
  refine literate.grown (literate.valid.alloc stored) (fun p f found => ?_) rfl
  rw [function?_eq, get?, literate.valid.get?_alloc stored] at found
  split at found
  · rw [Option.bind_some, plain] at found
    cases found
  · exact found

theorem Literate.modify (literate : c.Literate) {f : Object → Object}
    (same : ∀ x : Object, (f x).function? = x.function?) :
    c.Grown T { c with heap := c.heap.modify o f } := by
  refine literate.grown (literate.valid.modify o f) (fun p g found => ?_) rfl
  rw [function?_eq, get?, Heap.get?_modify] at found
  split at found
  next here =>
    cases own : c.heap.get? o with
    | none =>
      rw [own] at found
      cases found
    | some x =>
      rw [own, Option.map_some, Option.bind_some, same] at found
      rw [function?_eq, get?, here, own]
      exact found
  next => exact found

theorem Literate.intern (literate : c.Literate) (allowed : T s ∨ c.Quotes s) :
    c.Grown T { c with atoms := (c.atoms.intern s).2 } := by
  obtain same | ⟨fresh, more⟩ := c.atoms.intern_cases s
  · exact literate.rest rfl same
  · refine ⟨⟨literate.valid, fun o code name isConstructor found => ?_⟩, fun _ _ => id,
      [s], more, List.pairwise_singleton .., fun s' here => ?_⟩
    · obtain ⟨text, known⟩ := Option.isSome_iff_exists.1
        (literate.named o code name isConstructor found)
      exact Option.isSome_iff_exists.2 ⟨text, AtomTable.get?_of_append more known⟩
    · rw [List.mem_singleton.1 here]
      exact ⟨fresh, allowed⟩

theorem Literate.sweep (literate : c.Literate) (dead : List ObjectId) (marked n : Nat) :
    c.Grown T ((c.releaseAll dead).2.recordCollection marked n) := by
  refine literate.grown ((releaseAll_ages literate.valid dead).reset).valid
    (fun o f found => ?_) ?_
  · have look : ((c.releaseAll dead).2.recordCollection marked n).get? o =
        if o ∈ dead then none else c.get? o := releaseAll_get? c dead o
    rw [function?_eq, look] at found
    split at found
    · cases found
    · exact found
  · show (c.releaseAll dead).2.atoms = c.atoms
    rw [releaseAll_rest]

theorem literate_create (options : ContextOptions) : (create options).Literate where
  valid := create_valid options
  named o code name isConstructor found := by
    obtain ⟨x, here, own⟩ := Option.bind_eq_some_iff.1 ((function?_eq _ o).symm.trans found)
    have listed := mem_intrinsics options here
    simp only [intrinsics, List.mem_cons, List.not_mem_nil, or_false] at listed
    obtain rfl | rfl | rfl := listed <;> cases own

instance : Std.Refl (Grows T) := ⟨fun _ literate => literate.rest rfl rfl⟩

instance : IsTrans Context (Grows T) :=
  ⟨fun _ _ _ first second literate =>
    (first literate).trans literate (second (first literate).literate)⟩

def StaysLiterate (c c' : Context) : Prop :=
  c.Literate → c'.Literate

instance : Std.Refl StaysLiterate := ⟨fun _ => id⟩

instance : IsTrans Context StaysLiterate := ⟨fun _ _ _ first second => second ∘ first⟩

theorem Grows.staysLiterate (grows : Grows T c c') : c.StaysLiterate c' :=
  fun literate => (grows literate).literate

end Context

namespace Update

open Context

variable {T : String → Prop}

theorem primitives_grows : Primitives (Grows T) T fun x => x.function? = none where
  alloc {x} plain c o c' ran literate := by
    obtain ⟨⟨o, heap⟩, stored, ⟨⟩⟩ := Option.map_eq_some_iff.1 ran
    exact literate.alloc plain stored
  intern {s} allowed := by
    rintro c _ _ ⟨⟩ literate
    exact literate.intern (.inl allowed)
  touch o f touch := by
    rintro c _ _ ⟨⟩ literate
    exact literate.modify touch.function?
  rest heap atoms := by
    rintro c _ _ ⟨⟩ literate
    exact literate.rest (heap c) (atoms c)

theorem staysLiterate_newNative (code : FunctionId) (name : String) (isConstructor : Bool) :
    Relates StaysLiterate (newNative code name isConstructor) := by
  intro c o c' ran literate
  obtain ⟨a, c₁, ⟨⟩, ran⟩ := bind_eq_some.1 ran
  obtain ⟨⟨o, heap⟩, stored, ⟨⟩⟩ := Option.map_eq_some_iff.1 ran
  have before : Literate { c with atoms := (c.atoms.intern name).2 } :=
    (literate.intern (T := fun _ => True) (.inl trivial)).literate
  refine ⟨before.valid.alloc stored, fun p code' name' isConstructor' found => ?_⟩
  rw [function?_eq, get?, before.valid.get?_alloc stored] at found
  split at found
  · cases found
    exact AtomTable.get?_intern c.atoms name
  · exact before.named p code' name' isConstructor' found

theorem staysLiterate_newConstructor (code : FunctionId) (name : String) :
    Relates StaysLiterate (newConstructor code name) := by
  have grown {α : Type} {u : Update α} (grows : Relates (Grows fun _ => True) u) :
      Relates StaysLiterate u := grows.mono fun _ _ => Grows.staysLiterate
  exact (staysLiterate_newNative code name true).bind fun f =>
    (grown (primitives_grows.alloc rfl)).bind fun proto =>
      (grown (relates_key primitives_grows trivial)).bind fun k =>
        (grown ((relates_defineStored primitives_grows f k _).map _)).bind fun _ => .pure f

end Update

namespace Action

open Context

theorem grows {a : Action} (plain : a.makesFunction = false) :
    a.update.Relates (Grows (· ∈ a.texts)) := by
  refine Action.relates Update.primitives_grows (fun _ => id) (fun _ => id)
    (fun made => nomatch made.symm.trans plain) fun o proto _ => ?_
  rintro c _ _ ⟨⟩ literate
  exact literate.modify fun _ => rfl

theorem staysLiterate (a : Action) : a.update.Relates StaysLiterate := by
  cases made : a.makesFunction with
  | false => exact (grows made).mono fun _ _ => Grows.staysLiterate
  | true =>
    cases a with
    | newFunction code name => exact Update.staysLiterate_newNative code name false
    | newConstructor code name => exact Update.staysLiterate_newConstructor code name
    | _ => cases made

end Action

end ProxyEngine
