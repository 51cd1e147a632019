import ProxyEngine.Proofs.Number.Exact
import ProxyEngine.Proofs.Value.Boxing

/-! When two values are the same. Words are the same as themselves, all NaNs are the
same, and an integer is the same as the double that holds it, which is the positive
zero for zero. Nothing else is: in particular the two zeros differ, and no number is
the same as a value of another kind. -/

namespace ProxyEngine.Value

variable {a b v : Value} {n : Int32} {x y : Binary64}

def IsNaN (v : Value) : Prop :=
  v = nan ∨ v.isDouble ∧ (⟨v.bits⟩ : Binary64).isNaN

/-- The word is the double of the integer. -/
structure Doubles (v : Value) (n : Int32) : Prop where
  double : v.isDouble
  finite : (⟨v.bits⟩ : Binary64).isFinite
  exact : (⟨v.bits⟩ : Binary64).toRat = n.toInt
  positive : n = 0 → v = ⟨0⟩

theorem eq_int32_of_asInt32? (read : v.asInt32? = some n) : v = int32 n := by
  obtain ⟨tagged, payload⟩ := Option.ite_none_right_eq_some.1 read
  rw [← Option.some.inj payload]
  rw [isInt32, beq_iff_eq, upper32] at tagged
  rw [eq_iff_toNat, toNat_int32, UInt32.toUInt32_toInt32, UInt32.toNat_ofNat', Value.payload,
    ← tagged]
  omega

theorem asNumber?_int32 (n : Int32) : (int32 n).asNumber? = some (.ofInt32 n) := by
  rw [asNumber?, asInt32?_int32]

theorem asNumber?_eq_some_iff :
    v.asNumber? = some x ↔ (∃ n, v = int32 n ∧ x = .ofInt32 n) ∨
      v = nan ∧ x = ⟨0x7FF8000000000000⟩ ∨ v.isDouble ∧ x = ⟨v.bits⟩ := by
  constructor
  · intro read
    unfold asNumber? at read
    split at read
    next n integer =>
      exact .inl ⟨n, eq_int32_of_asInt32? integer, (Option.some.inj read).symm⟩
    next =>
      split at read
      next single => exact .inr (.inl ⟨beq_iff_eq.1 single, (Option.some.inj read).symm⟩)
      next =>
        obtain ⟨double, read⟩ := Option.ite_none_right_eq_some.1 read
        exact .inr (.inr ⟨double, (Option.some.inj read).symm⟩)
  · rintro (⟨n, rfl, rfl⟩ | ⟨rfl, rfl⟩ | ⟨double, rfl⟩)
    · exact asNumber?_int32 n
    · decide
    · exact asNumber?_of_isDouble double

theorem isNaN_iff : v.IsNaN ↔ ∃ x, v.asNumber? = some x ∧ x.isNaN := by
  constructor
  · rintro (rfl | ⟨double, nan⟩)
    · exact ⟨_, rfl, rfl⟩
    · exact ⟨_, asNumber?_of_isDouble double, nan⟩
  · rintro ⟨x, read, nan⟩
    rcases asNumber?_eq_some_iff.1 read with ⟨n, rfl, rfl⟩ | ⟨rfl, rfl⟩ | ⟨double, rfl⟩
    · rw [Binary64.isNaN_ofInt32] at nan
      contradiction
    · exact .inl rfl
    · exact .inr ⟨double, nan⟩

theorem isDouble_ofInt32 (n : Int32) : isDouble ⟨(Binary64.ofInt32 n).bits⟩ := by
  apply isDouble_of_not_isNaN
  simp [Binary64.isNaN_ofInt32]

theorem doubles_iff : v.Doubles n ↔ v = ⟨(Binary64.ofInt32 n).bits⟩ := by
  constructor
  · rintro ⟨-, -, exact, positive⟩
    rw [← Binary64.toRat_ofInt32, Binary64.toRat_eq_toRat_iff] at exact
    rcases exact with same | ⟨-, zero⟩
    · rw [← same]
    · rw [Binary64.isZero_ofInt32_iff] at zero
      rw [positive zero, zero, Binary64.ofInt32_zero]
  · rintro rfl
    refine ⟨isDouble_ofInt32 n, Binary64.isFinite_ofInt32 n, Binary64.toRat_ofInt32 n, ?_⟩
    rintro rfl
    rw [Binary64.ofInt32_zero]

theorem asNumber?_of_doubles (doubles : v.Doubles n) : v.asNumber? = some (.ofInt32 n) := by
  rw [doubles_iff.1 doubles, asNumber?_of_isDouble (isDouble_ofInt32 n)]

theorem encoding_of_asNumber? (read : v.asNumber? = some x) (defined : ¬ x.isNaN) :
    (∃ n, v = int32 n ∧ x = .ofInt32 n) ∨ v = ⟨x.bits⟩ := by
  rcases asNumber?_eq_some_iff.1 read with integer | ⟨-, rfl⟩ | ⟨-, rfl⟩
  · exact .inl integer
  · contradiction
  · exact .inr rfl

/-- Numbers read as one double are one word, or an integer and its double, or NaN. -/
theorem encodings_of_asNumber? (read : a.asNumber? = some x) (read' : b.asNumber? = some x) :
    a = b ∨ a.IsNaN ∧ b.IsNaN ∨ ∃ n, a = int32 n ∧ b.Doubles n ∨ b = int32 n ∧ a.Doubles n := by
  by_cases defined : x.isNaN
  · exact .inr (.inl ⟨isNaN_iff.2 ⟨x, read, defined⟩, isNaN_iff.2 ⟨x, read', defined⟩⟩)
  · rcases encoding_of_asNumber? read defined with ⟨n, rfl, rfl⟩ | rfl
    · rcases encoding_of_asNumber? read' defined with ⟨n', rfl, same⟩ | rfl
      · exact .inl (congrArg int32 (Binary64.ofInt32_inj same))
      · exact .inr (.inr ⟨n, .inl ⟨rfl, doubles_iff.2 rfl⟩⟩)
    · rcases encoding_of_asNumber? read' defined with ⟨n', rfl, rfl⟩ | rfl
      · exact .inr (.inr ⟨n', .inr ⟨rfl, doubles_iff.2 rfl⟩⟩)
      · exact .inl rfl

theorem same_iff_encodings :
    a.same b ↔ a = b ∨ a.IsNaN ∧ b.IsNaN ∨
      ∃ n, a = int32 n ∧ b.Doubles n ∨ b = int32 n ∧ a.Doubles n := by
  rw [same_iff]
  constructor
  · rintro (rfl | ⟨x, y, read, read', ⟨undefined, undefined'⟩ | rfl⟩)
    · exact .inl rfl
    · exact .inr (.inl ⟨isNaN_iff.2 ⟨x, read, undefined⟩, isNaN_iff.2 ⟨y, read', undefined'⟩⟩)
    · exact encodings_of_asNumber? read read'
  · rintro (rfl | ⟨undefined, undefined'⟩ | ⟨n, ⟨rfl, doubles⟩ | ⟨rfl, doubles⟩⟩)
    · exact .inl rfl
    · obtain ⟨x, read, undefined⟩ := isNaN_iff.1 undefined
      obtain ⟨y, read', undefined'⟩ := isNaN_iff.1 undefined'
      exact .inr ⟨x, y, read, read', .inl ⟨undefined, undefined'⟩⟩
    · exact .inr ⟨_, _, asNumber?_int32 n, asNumber?_of_doubles doubles, .inr rfl⟩
    · exact .inr ⟨_, _, asNumber?_of_doubles doubles, asNumber?_int32 n, .inr rfl⟩

theorem same_symm (same : a.same b) : b.same a := by
  rw [same_iff_encodings] at *
  rcases same with rfl | ⟨undefined, undefined'⟩ | ⟨n, encodings⟩
  · exact .inl rfl
  · exact .inr (.inl ⟨undefined', undefined⟩)
  · exact .inr (.inr ⟨n, encodings.symm⟩)

theorem same_iff_compared :
    a.same b ↔ match a.asNumber?, b.asNumber? with
      | some x, some y => x.isNaN ∧ y.isNaN ∨ x.equals y ∧ x.isNegative = y.isNegative
      | _, _ => a = b := by
  unfold same
  cases a.asNumber? with
  | none => simp
  | some x =>
    cases b.asNumber? with
    | none => simp
    | some y => simp [Binary64.equals_signs_iff]

theorem isNumber_of_same (same : a.same b) (number : a.isNumber) : b.isNumber := by
  rcases same_iff.1 same with rfl | ⟨_, y, -, read, -⟩
  · exact number
  · exact isNumber_of_asNumber? read

theorem same_equivalence : Equivalence (fun a b : Value => a.same b = true) where
  refl := same_refl
  symm := same_symm
  trans := same_trans

theorem int32_zero_same_iff : (int32 0).same v ↔ v = int32 0 ∨ v = ⟨0⟩ := by
  constructor
  · intro same
    rcases same_iff_encodings.1 same with rfl | ⟨single | ⟨double, -⟩, -⟩ | ⟨n, encodings⟩
    · exact .inl rfl
    · exact absurd single (by decide)
    · exact absurd double (by decide)
    · rcases encodings with ⟨integer, doubles⟩ | ⟨-, doubles⟩
      · have zero := congrArg asInt32? integer
        rw [asInt32?_int32, asInt32?_int32, Option.some.injEq] at zero
        exact .inr (doubles.positive zero.symm)
      · exact absurd doubles.double (by decide)
  · rintro (rfl | rfl)
    · exact same_refl _
    · decide

/-- Sameness of values. It is an equivalence. Two values are the same exactly when they are
one word, or both NaN, or an integer and the one double that holds it; numbers are compared
as the doubles they stand for and by their signs. No number is the same as another value,
the two zeros differ, and the integer zero is the same as the positive one alone. -/
theorem same_characterized :
    Equivalence (fun a b : Value => a.same b = true) ∧
    (∀ a b : Value,
      (a.same b ↔ a.bits = b.bits ∨ a.IsNaN ∧ b.IsNaN ∨
        ∃ n, a = int32 n ∧ b.Doubles n ∨ b = int32 n ∧ a.Doubles n) ∧
      (a.same b ↔ match a.asNumber?, b.asNumber? with
        | some x, some y => x.isNaN ∧ y.isNaN ∨ x.equals y ∧ x.isNegative = y.isNegative
        | _, _ => a = b) ∧
      (a.same b → (a.isNumber ↔ b.isNumber))) ∧
    (∀ n, ∃! v : Value, v.Doubles n) ∧
    ¬ (⟨0⟩ : Value).same ⟨0x8000000000000000⟩ ∧
    ∀ v, (int32 0).same v ↔ v = int32 0 ∨ v = ⟨0⟩ := by
  refine ⟨same_equivalence, fun a b => ⟨?_, same_iff_compared, fun same => ?_⟩, fun n => ?_, ?_,
    fun v => int32_zero_same_iff⟩
  · rw [same_iff_encodings, Value.mk.injEq]
  · exact ⟨isNumber_of_same same, isNumber_of_same (same_symm same)⟩
  · exact ⟨⟨(Binary64.ofInt32 n).bits⟩, doubles_iff.2 rfl, fun v doubles => doubles_iff.1 doubles⟩
  · decide

theorem int32_min_same :
    (int32 Int32.minValue).same ⟨0xC1E0000000000000⟩ ∧
      (⟨0x7FF0000000000001⟩ : Value).same nan ∧ ¬ nan.same ⟨0⟩ := by
  obtain ⟨-, characterized, -⟩ := same_characterized
  have doubles : (⟨0xC1E0000000000000⟩ : Value).Doubles Int32.minValue :=
    doubles_iff.2 (by decide)
  have undefined : (⟨0x7FF0000000000001⟩ : Value).IsNaN := .inr ⟨by decide, by decide⟩
  refine ⟨?_, ?_, fun same => ?_⟩
  · exact (characterized _ _).1.2 (.inr (.inr ⟨_, .inl ⟨rfl, doubles⟩⟩))
  · exact (characterized _ _).1.2 (.inr (.inl ⟨undefined, .inl rfl⟩))
  · rcases (characterized nan ⟨0⟩).2.1.1 same with ⟨-, defined⟩ | ⟨equal, -⟩
    · exact absurd defined (by decide)
    · exact absurd equal (by decide)

end ProxyEngine.Value
