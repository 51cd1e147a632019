import ProxyEngine.Boundary
import ProxyEngine.Proofs.Atom
import ProxyEngine.Proofs.Context.Rewriting
import ProxyEngine.Proofs.Text.Digits

/-! Keys and their spellings. A text is the decimal spelling of at most one index,
any other text has an atom of its own, and both stay with it whatever the context
goes through later: making keys of texts loses nothing and confuses nothing. Only
the last index is left out. It spells a text whose key is an atom. -/

namespace ProxyEngine

namespace PropertyKey

variable {s : String} {i : UInt32}

theorem parseIndex?_of_canonical (canonical : Digits.Canonical s.toList) :
    parseIndex? s =
      if Digits.value s.toList < 0xFFFFFFFF then some (.ofNat (Digits.value s.toList))
      else none := by
  obtain ⟨nonempty, digits, leading⟩ := canonical
  have proper :
      (s.toList.isEmpty || s.toList.head? == some '0' && s.toList.length > 1) = false := by
    simp only [Bool.or_eq_false_iff, List.isEmpty_eq_false_iff, Bool.and_eq_false_iff,
      beq_eq_false_iff_ne, decide_eq_false_iff_not]
    refine ⟨nonempty, ?_⟩
    by_cases zero : s.toList.head? = some '0'
    · have alone := leading zero
      omega
    · exact .inl zero
  have all : s.toList.all Char.isDigit = true := List.all_eq_true.2 digits
  simp only [parseIndex?, proper, all]
  rfl

theorem canonical_of_parseIndex? (parsed : parseIndex? s = some i) :
    Digits.Canonical s.toList := by
  simp only [parseIndex?] at parsed
  split at parsed
  · contradiction
  next proper =>
    split at parsed
    · contradiction
    next digits =>
      simp only [Bool.or_eq_true, List.isEmpty_iff, Bool.and_eq_true, beq_iff_eq,
        decide_eq_true_eq, not_or, not_and] at proper
      refine ⟨proper.1, by simpa using digits, fun zero => ?_⟩
      have single := proper.2 zero
      have some := List.length_pos_iff.2 proper.1
      omega

/-- The texts that name an index are the decimal spellings of all indices but the last. -/
theorem parseIndex?_eq_some_iff :
    parseIndex? s = some i ↔ i.toNat < 0xFFFFFFFF ∧ s = toString i.toNat := by
  constructor
  · intro parsed
    have canonical := canonical_of_parseIndex? parsed
    rw [parseIndex?_of_canonical canonical] at parsed
    split at parsed
    next small =>
      obtain rfl := Option.some.inj parsed
      have index : (UInt32.ofNat (Digits.value s.toList)).toNat = Digits.value s.toList := by
        simp only [UInt32.toNat_ofNat']
        omega
      rw [index]
      refine ⟨small, ?_⟩
      rw [Nat.toString_eq_ofList_toDigits, canonical.toDigits_value, String.ofList_toList]
    next => contradiction
  · rintro ⟨small, rfl⟩
    have spelling : (toString i.toNat).toList = Nat.toDigits 10 i.toNat := by simp
    have canonical := Digits.canonical_toDigits i.toNat
    rw [← spelling] at canonical
    rw [parseIndex?_of_canonical canonical, spelling, Digits.value_toDigits, if_pos small,
      UInt32.ofNat_toNat]

def tag : PropertyKey → Nat
  | void => 0
  | index _ => 1
  | atom _ => 2
  | symbol _ => 3

def payload : PropertyKey → UInt32
  | void => 0
  | index i => i
  | atom a => a.index
  | symbol s => s.index

theorem bits_eq (k : PropertyKey) : k.bits = k.tag * 0x100000000 + k.payload.toNat := by
  cases k with
  | void => rw [bits, tag, payload, UInt32.toNat_zero, Nat.zero_mul]
  | index i => rw [bits, tag, payload, Nat.one_mul]
  | atom a => rw [bits, tag, payload]
  | symbol s => rw [bits, tag, payload]

theorem eq_of_halves {k l : PropertyKey} (kinds : k.tag = l.tag)
    (payloads : k.payload = l.payload) : k = l := by
  cases k <;> cases l <;> simp_all [tag, payload]
  all_goals
    rename_i a b
    cases a
    cases b
    simp_all

theorem bits_inj {k l : PropertyKey} : k.bits = l.bits ↔ k = l := by
  refine ⟨fun same => ?_, congrArg bits⟩
  rw [bits_eq, bits_eq] at same
  have bound := k.payload.toNat_lt
  have bound' := l.payload.toNat_lt
  apply eq_of_halves
  · omega
  · apply UInt32.toNat_inj.1
    omega

end PropertyKey

namespace Context

/-- The key of the text: the index it spells, or the atom it has on the context. -/
inductive Names (c : Context) (s : String) : PropertyKey → Prop
  | index {i : UInt32} : PropertyKey.parseIndex? s = some i → Names c s (.index i)
  | atom {a : Atom} :
      PropertyKey.parseIndex? s = none → c.atoms.find? s = some a → Names c s (.atom a)

variable {c c' : Context} {s s' : String} {k k' : PropertyKey}

theorem Step.texts (step : c.Step c') : c.atoms.texts <+: c'.atoms.texts := by
  cases step with
  | edit edit =>
    cases edit with
    | intern s => exact c.atoms.texts_prefix_intern s
    | _ => exact List.prefix_refl _
  | sweep dead marked =>
    show c.atoms.texts <+: (c.releaseAll dead).2.atoms.texts
    rw [releaseAll_rest]
  | _ => exact List.prefix_refl _

theorem Reaches.texts (reaches : c.Reaches c') : c.atoms.texts <+: c'.atoms.texts := by
  induction reaches with
  | refl => exact List.prefix_refl _
  | tail _ step ih => exact ih.trans step.texts

theorem Names.later (names : c.Names s k) (reaches : c.Reaches c') : c'.Names s k := by
  cases names with
  | index spelled => exact .index spelled
  | atom unspelled found => exact .atom unspelled (AtomTable.find?_of_prefix reaches.texts found)

theorem Names.eq_index_iff (names : c.Names s k) (i : UInt32) :
    k = .index i ↔ PropertyKey.parseIndex? s = some i := by
  cases names with
  | index spelled => simp [spelled]
  | atom unspelled _ => simp [unspelled]

theorem Names.unique (names : c.Names s k) (names' : c.Names s k') : k = k' := by
  cases names <;> cases names' <;> simp_all

theorem Names.inj (numbered : c.atoms.size ≤ 0x100000000) (names : c.Names s k)
    (names' : c.Names s' k) : s = s' := by
  cases names with
  | index spelled =>
    have spelled' := (names'.eq_index_iff _).1 rfl
    rw [PropertyKey.parseIndex?_eq_some_iff] at spelled spelled'
    rw [spelled.2, spelled'.2]
  | atom _ found =>
    cases names' with
    | atom _ found' => exact AtomTable.find?_inj numbered found found'

theorem Names.isIndex_iff (names : c.Names s k) :
    k.isIndex = true ↔ ∃ n < 0xFFFFFFFF, s = toString n := by
  cases names with
  | index spelled =>
    have spelled := PropertyKey.parseIndex?_eq_some_iff.1 spelled
    exact iff_of_true rfl ⟨_, spelled⟩
  | atom unspelled _ =>
    refine iff_of_false (by simp [PropertyKey.isIndex]) ?_
    rintro ⟨n, small, rfl⟩
    have index : (UInt32.ofNat n).toNat = n := by
      simp only [UInt32.toNat_ofNat']
      omega
    have spelled : PropertyKey.parseIndex? (toString n) = some (.ofNat n) := by
      rw [PropertyKey.parseIndex?_eq_some_iff, index]
      exact ⟨small, rfl⟩
    rw [spelled] at unspelled
    contradiction

theorem Names.eq_iff (numbered : c.atoms.size ≤ 0x100000000) (names : c.Names s k)
    (names' : c.Names s' k') : k = k' ↔ s = s' := by
  constructor
  · rintro rfl
    exact names.inj numbered names'
  · rintro rfl
    exact names.unique names'

theorem Names.keyText (numbered : c.atoms.size ≤ 0x100000000) (names : c.Names s k) :
    c.keyText k = s := by
  cases names with
  | index spelled => exact (PropertyKey.parseIndex?_eq_some_iff.1 spelled).2.symm
  | atom _ found =>
    rw [Context.keyText, atomText, AtomTable.get?_of_find? numbered found, Option.getD_some]

end Context

namespace Update

open Context

variable {c : Context} {s : String} {k : PropertyKey}

theorem intern_of_find? {a : Atom} (found : c.atoms.find? s = some a) :
    intern s c = some (a, c) := by
  show some ((c.atoms.intern s).1, { c with atoms := (c.atoms.intern s).2 }) = _
  rw [AtomTable.intern_of_find? found]

theorem intern_finds (s : String) (c : Context) :
    ∃ a c', intern s c = some (a, c') ∧ c.Reaches c' ∧ c'.atoms.find? s = some a :=
  ⟨_, _, rfl, (Context.Step.edit (.intern s)).reaches, c.atoms.find?_intern s⟩

theorem key_names (s : String) (c : Context) :
    ∃ k c', key s c = some (k, c') ∧ c.Reaches c' ∧ c'.Names s k := by
  unfold key
  cases spelled : PropertyKey.parseIndex? s with
  | some i => exact ⟨_, _, rfl, .refl, .index spelled⟩
  | none =>
    obtain ⟨a, c', ran, reaches, found⟩ := intern_finds s c
    refine ⟨.atom a, c', ?_, reaches, .atom spelled found⟩
    show (PropertyKey.atom <$> intern s) c = _
    rw [map_eq_pure_bind, bind_of_some ran]
    rfl

theorem keyToValue_eq (names : c.Names s k) : keyToValue k c = newString s c := by
  cases names with
  | index spelled =>
    rw [(PropertyKey.parseIndex?_eq_some_iff.1 spelled).2]
    rfl
  | atom _ found =>
    rw [newString, map_eq_pure_bind, bind_of_some (intern_of_find? found)]
    rfl

theorem newString_finds (s : String) (c : Context) :
    ∃ v c', newString s c = some (v, c') ∧ c.Reaches c' ∧
      ∀ c'', c'.Reaches c'' → newString s c'' = some (v, c'') := by
  obtain ⟨a, c', ran, reaches, found⟩ := intern_finds s c
  have settled {c c' : Context} (ran : intern s c = some (a, c')) :
      newString s c = some (.string a, c') := by
    rw [newString, map_eq_pure_bind, bind_of_some ran]
    rfl
  refine ⟨.string a, c', settled ran, reaches, fun c'' later => ?_⟩
  exact settled (intern_of_find? (AtomTable.find?_of_prefix later.texts found))

end Update

namespace Context

/-- Keys of texts. Making a key always succeeds, and what is said of it holds whatever the
context goes through afterwards: keys are equal exactly when their texts are, a key is an
index exactly when its text is the decimal spelling of one that is not the last, its text is
read back from it, and its value is the string of its text. Keys and texts are compared as
long as there is an atom for every interned text. -/
theorem keys_canonical (c : Context) (s : String) :
    (∃ k c₁, Update.key s c = some (k, c₁) ∧
      (∀ i : UInt32, k = .index i ↔ i.toNat < 0xFFFFFFFF ∧ s = toString i.toNat) ∧
      (k.isIndex = true ↔ ∃ n < 0xFFFFFFFF, s = toString n) ∧
      ∀ c₂, c₁.Reaches c₂ →
        (c₂.atoms.size ≤ 0x100000000 → c₂.keyText k = s) ∧
        (∃ v c₃, Update.keyToValue k c₂ = some (v, c₃) ∧ Update.newString s c₂ = some (v, c₃) ∧
          ∀ c₄, c₃.Reaches c₄ →
            Update.keyToValue k c₄ = some (v, c₄) ∧ Update.newString s c₄ = some (v, c₄)) ∧
        ∀ t, ∃ l c₃, Update.key t c₂ = some (l, c₃) ∧
          (c₃.atoms.size ≤ 0x100000000 → (k = l ↔ s = t) ∧ (k.bits = l.bits ↔ s = t))) ∧
    (∀ i : UInt32, (∃ c₁, Update.key (c.keyText (.index i)) c = some (.index i, c₁)) ↔
      i.toNat ≠ 0xFFFFFFFF) ∧
    (∀ c₁, Update.key s c ≠ some (Boundary.intToKey 0xFFFFFFFF, c₁)) ∧
    ∃ a c₁, Update.key (c.keyText (Boundary.intToKey 0xFFFFFFFF)) c = some (.atom a, c₁) ∧
      (c₁.atoms.size ≤ 0x100000000 →
        c₁.keyText (.atom a) = c.keyText (Boundary.intToKey 0xFFFFFFFF)) := by
  have index {c : Context} {s : String} {k : PropertyKey} (names : c.Names s k) (i : UInt32) :
      k = .index i ↔ i.toNat < 0xFFFFFFFF ∧ s = toString i.toNat :=
    (names.eq_index_iff i).trans PropertyKey.parseIndex?_eq_some_iff
  refine ⟨?_, fun i => ?_, fun c₁ ran => ?_, ?_⟩
  · obtain ⟨k, c₁, ran, -, names⟩ := Update.key_names s c
    refine ⟨k, c₁, ran, index names, names.isIndex_iff, fun c₂ between => ?_⟩
    have names₂ := names.later between
    refine ⟨fun numbered => names₂.keyText numbered, ?_, fun t => ?_⟩
    · obtain ⟨v, c₃, made, reaches, settled⟩ := Update.newString_finds s c₂
      refine ⟨v, c₃, ?_, made, fun c₄ later => ⟨?_, settled c₄ later⟩⟩
      · rw [Update.keyToValue_eq names₂, made]
      · rw [Update.keyToValue_eq ((names₂.later reaches).later later), settled c₄ later]
    · obtain ⟨l, c₃, made, reaches, names'⟩ := Update.key_names t c₂
      refine ⟨l, c₃, made, fun numbered => ?_⟩
      have same : k = l ↔ s = t := (names₂.later reaches).eq_iff numbered names'
      exact ⟨same, PropertyKey.bits_inj.trans same⟩
  · obtain ⟨k, c₁, ran, -, names⟩ := Update.key_names (c.keyText (.index i)) c
    have bound := i.toNat_lt
    have inside : i.toNat < 0xFFFFFFFF ↔ i.toNat ≠ 0xFFFFFFFF := by omega
    rw [ran, ← inside]
    simp only [Option.some.injEq, Prod.mk.injEq, exists_and_left, exists_eq', and_true]
    rw [index names]
    exact and_iff_left rfl
  · obtain ⟨k, c₂, ran', -, names⟩ := Update.key_names s c
    rw [ran', Option.some.injEq, Prod.mk.injEq] at ran
    have last := ((index names 0xFFFFFFFF).1 ran.1).1
    contradiction
  · obtain ⟨k, c₁, ran, -, names⟩ := Update.key_names (c.keyText (Boundary.intToKey 0xFFFFFFFF)) c
    cases names with
    | @index i spelled =>
      -- An index spelled like the last one would be the last one, which no text spells.
      have spelled := PropertyKey.parseIndex?_eq_some_iff.1 spelled
      have text : toString 0xFFFFFFFF = toString i.toNat := spelled.2
      have same := congrArg (fun text => Digits.value text.toList) text
      simp only [Nat.toString_eq_repr, Nat.toList_repr, Digits.value_toDigits] at same
      have small := spelled.1
      omega
    | atom unspelled found =>
      exact ⟨_, c₁, ran, fun numbered => Names.keyText numbered (.atom unspelled found)⟩

def padded : Context :=
  { create with atoms := (AtomTable.intern {} "07").2 }

theorem padded_canonical :
    Update.key "07" create = some (.atom ⟨0⟩, padded) ∧ padded.atoms.size ≤ 0x100000000 ∧
      padded.keyText (.atom ⟨0⟩) = "07" ∧ Update.key "7" padded = some (.index 7, padded) ∧
      PropertyKey.index 7 ≠ .atom ⟨0⟩ := by
  have first : Update.key "07" create = some (.atom ⟨0⟩, padded) := rfl
  have second : Update.key "7" padded = some (.index 7, padded) := rfl
  have numbered : padded.atoms.size ≤ 0x100000000 := by decide
  obtain ⟨⟨k, c₁, ran, -, -, later⟩, -⟩ := keys_canonical create "07"
  obtain ⟨rfl, rfl⟩ := Prod.mk.inj (Option.some.inj (first.symm.trans ran))
  obtain ⟨text, -, compared⟩ := later padded .refl
  obtain ⟨l, c₂, ran', same⟩ := compared "7"
  obtain ⟨rfl, rfl⟩ := Prod.mk.inj (Option.some.inj (second.symm.trans ran'))
  refine ⟨first, numbered, text numbered, second, fun equal => ?_⟩
  exact absurd ((same numbered).1.1 equal.symm) (by decide)

end Context

end ProxyEngine
