import ProxyEngine.Proofs.Value

/-! Kinds of words. Each kind has words of its own: a number is a double that is not a
quiet NaN, the one word of NaN, or an integer with its tag; the other kinds are single
words and tags between the quiet NaNs. What a value was built from is therefore read
back from its word, and no word has two kinds. -/

namespace ProxyEngine.Value

inductive Kind
  | undefined
  | null
  | boolean
  | number
  | string
  | symbol
  | object
  deriving DecidableEq

def is (v : Value) : Kind → Bool
  | .undefined => v.isUndefined
  | .null => v.isNull
  | .boolean => v.isBoolean
  | .number => v.isNumber
  | .string => v.isString
  | .symbol => v.isSymbol
  | .object => v.isObject

inductive Payload
  | undefined
  | null
  | boolean (b : Bool)
  | int32 (n : Int32)
  | number (x : Binary64)
  | string (a : Atom)
  | symbol (s : SymbolId)
  | object (o : ObjectId)
  deriving DecidableEq

inductive Accessor
  | boolean
  | int32
  | number
  | string
  | symbol
  | object
  deriving DecidableEq

namespace Payload

def value : Payload → Value
  | undefined => Value.undefined
  | null => Value.null
  | boolean b => Value.boolean b
  | int32 n => Value.int32 n
  | number x => Value.number x
  | string a => Value.string a
  | symbol s => Value.symbol s
  | object o => Value.object o

def kind : Payload → Kind
  | undefined => .undefined
  | null => .null
  | boolean _ => .boolean
  | int32 _ | number _ => .number
  | string _ => .string
  | symbol _ => .symbol
  | object _ => .object

/-- The payload with one word for all NaNs. -/
def canonical : Payload → Payload
  | number x => number (if x.isNaN then ⟨0x7FF8000000000000⟩ else x)
  | p => p

/-- How the payload is read back; the two single values carry nothing to read. -/
def accessor? : Payload → Option Accessor
  | undefined | null => none
  | boolean _ => some .boolean
  | int32 _ => some .int32
  | number _ => some .number
  | string _ => some .string
  | symbol _ => some .symbol
  | object _ => some .object

end Payload

namespace Accessor

def kind : Accessor → Kind
  | boolean => .boolean
  | int32 | number => .number
  | string => .string
  | symbol => .symbol
  | object => .object

end Accessor

def read (v : Value) : Accessor → Option Payload
  | .boolean => v.asBoolean?.map .boolean
  | .int32 => v.asInt32?.map .int32
  | .number => v.asNumber?.map .number
  | .string => v.asString?.map .string
  | .symbol => v.asSymbol?.map .symbol
  | .object => v.asObject?.map .object

variable {v w : Value} {k k' : Kind} {p q : Payload} {acc : Accessor}

theorem eq_iff_toNat : v = w ↔ v.bits.toNat = w.bits.toNat := by
  rw [UInt64.toNat_inj, Value.mk.injEq]

def Kind.Holds (n : Nat) : Kind → Prop
  | undefined => n = 0x7FF8000000000000
  | null => n = 0x7FF8000000000001
  | boolean => n = 0x7FF8000000000002 ∨ n = 0x7FF8000000000003
  | number =>
    n / 0x8000000000000 % 0x1000 ≠ 0xFFF ∨ n = 0x7FFA000000000000 ∨ n / 0x100000000 = int32Tag
  | string => n / 0x1000000000000 = stringTag
  | symbol => n / 0x1000000000000 = symbolTag
  | object => n / 0x1000000000000 = objectTag

theorem is_iff : v.is k ↔ k.Holds v.bits.toNat := by
  cases k with
  | undefined => simp [is, isUndefined, eq_iff_toNat, undefined, Kind.Holds]
  | null => simp [is, isNull, eq_iff_toNat, null, Kind.Holds]
  | boolean => simp [is, isBoolean, eq_iff_toNat, boolean, Kind.Holds]
  | number =>
    simp [is, isNumber, isDouble, isInt32, upper32, eq_iff_toNat, nan, Kind.Holds, or_assoc]
  | string => simp [is, isString, upper16, Kind.Holds]
  | symbol => simp [is, isSymbol, upper16, Kind.Holds]
  | object => simp [is, isObject, upper16, Kind.Holds]

theorem kind_unique (first : v.is k) (second : v.is k') : k = k' := by
  rw [is_iff] at first second
  -- All kinds but numbers lie between the quiet NaNs, each under upper bits of its own.
  cases k <;> cases k' <;>
    simp only [Kind.Holds, int32Tag, stringTag, symbolTag, objectTag] at first second <;>
    first | rfl | omega

theorem and_shifted (n m k : Nat) : n &&& m <<< k = (n >>> k &&& m) <<< k := by
  rw [Nat.shiftLeft_eq, Nat.shiftLeft_eq, Nat.shiftRight_eq_div_pow]
  have low : (n &&& m * 2 ^ k) % 2 ^ k = 0 := by
    rw [Nat.and_mod_two_pow, Nat.mul_mod_left, Nat.and_zero]
  have high : (n &&& m * 2 ^ k) / 2 ^ k = n / 2 ^ k &&& m := by
    rw [Nat.and_div_two_pow, Nat.mul_div_cancel _ (Nat.two_pow_pos k)]
  rw [← high, Nat.div_mul_cancel (Nat.dvd_of_mod_eq_zero low)]

theorem upper16_eq_iff_mask {tag : Nat} (tagged : tag < 0x10000) :
    v.upper16 = tag ↔ v.bits &&& 0xFFFF000000000000 = (tagged16 tag 0).bits := by
  have bound := v.bits.toNat_lt
  have masked := and_shifted v.bits.toNat (2 ^ 16 - 1) 48
  rw [Nat.and_two_pow_sub_one_eq_mod] at masked
  rw [← UInt64.toNat_inj, UInt64.toNat_and, toNat_tagged16 tagged (by decide), upper16]
  show _ ↔ v.bits.toNat &&& (2 ^ 16 - 1) <<< 48 = _
  omega

theorem isInt32_iff_mask : v.isInt32 ↔ v.bits &&& 0xFFFFFFFF00000000 = 0x7FF8000100000000 := by
  have bound := v.bits.toNat_lt
  have masked := and_shifted v.bits.toNat (2 ^ 32 - 1) 32
  rw [Nat.and_two_pow_sub_one_eq_mod] at masked
  rw [isInt32, beq_iff_eq, ← UInt64.toNat_inj, UInt64.toNat_and, upper32, int32Tag]
  show _ ↔ v.bits.toNat &&& (2 ^ 32 - 1) <<< 32 = 0x7FF80001 <<< 32
  omega

theorem isDouble_iff_mask :
    v.isDouble ↔ v.bits &&& 0x7FF8000000000000 ≠ 0x7FF8000000000000 := by
  have masked := and_shifted v.bits.toNat (2 ^ 12 - 1) 51
  rw [Nat.and_two_pow_sub_one_eq_mod] at masked
  rw [isDouble, bne_iff_ne, ne_eq, ne_eq, ← UInt64.toNat_inj, UInt64.toNat_and]
  show _ ↔ ¬ v.bits.toNat &&& (2 ^ 12 - 1) <<< 51 = (2 ^ 12 - 1) <<< 51
  omega

/-- The words of a kind, by what a mask leaves of them. -/
def Kind.Masked (word : UInt64) : Kind → Prop
  | undefined => word = 0x7FF8000000000000
  | null => word = 0x7FF8000000000001
  | boolean => word = 0x7FF8000000000002 ∨ word = 0x7FF8000000000003
  | number =>
    word &&& 0x7FF8000000000000 ≠ 0x7FF8000000000000 ∨ word = 0x7FFA000000000000 ∨
      word &&& 0xFFFFFFFF00000000 = 0x7FF8000100000000
  | string => word &&& 0xFFFF000000000000 = 0x7FF9000000000000
  | symbol => word &&& 0xFFFF000000000000 = 0x7FFB000000000000
  | object => word &&& 0xFFFF000000000000 = 0x7FFC000000000000

theorem is_iff_masked : v.is k ↔ k.Masked v.bits := by
  have word (w : UInt64) : (v == ⟨w⟩) = true ↔ v.bits = w := by
    rw [beq_iff_eq, ← Value.mk.injEq]
  cases k with
  | undefined => exact word _
  | null => exact word _
  | boolean =>
    rw [is, isBoolean, Bool.or_eq_true]
    exact or_congr (word _) (word _)
  | number =>
    rw [is, isNumber, Bool.or_eq_true, Bool.or_eq_true, or_assoc, isDouble_iff_mask,
      isInt32_iff_mask]
    exact or_congr_right (or_congr_left (word _))
  | string =>
    rw [is, isString, beq_iff_eq, upper16_eq_iff_mask (by decide)]
    rfl
  | symbol =>
    rw [is, isSymbol, beq_iff_eq, upper16_eq_iff_mask (by decide)]
    rfl
  | object =>
    rw [is, isObject, beq_iff_eq, upper16_eq_iff_mask (by decide)]
    rfl

theorem toNat_int32 (n : Int32) :
    (int32 n).bits.toNat = int32Tag * 0x100000000 + n.toUInt32.toNat := by
  have := n.toUInt32.toNat_lt
  simp only [int32, int32Tag, UInt64.toNat_ofNat']
  omega

theorem isDouble_of_not_isNaN {x : Binary64} (proper : ¬ x.isNaN) : isDouble ⟨x.bits⟩ := by
  simp only [Binary64.isNaN, Binary64.isSpecial, Binary64.exponentField, Binary64.fraction,
    Bool.and_eq_true, beq_iff_eq, bne_iff_ne] at proper
  simp only [isDouble, bne_iff_ne]
  omega

theorem asInt32?_of_isDouble (double : v.isDouble) : v.asInt32? = none := by
  have untagged : ¬ v.isInt32 := by
    simp only [isDouble, bne_iff_ne] at double
    simp only [isInt32, upper32, int32Tag, beq_iff_eq]
    omega
  rw [asInt32?, if_neg untagged]

theorem asNumber?_of_isDouble (double : v.isDouble) : v.asNumber? = some ⟨v.bits⟩ := by
  have distinct : v ≠ nan := by
    rintro rfl
    contradiction
  simp only [asNumber?, asInt32?_of_isDouble double, beq_iff_eq, if_neg distinct, if_pos double]

@[simp] theorem asInt32?_number (x : Binary64) : (number x).asInt32? = none := by
  unfold number
  split
  · decide
  next proper => exact asInt32?_of_isDouble (isDouble_of_not_isNaN proper)

@[simp] theorem asBoolean?_boolean (b : Bool) : (boolean b).asBoolean? = some b := by
  cases b <;> decide

@[simp] theorem asInt32?_int32 (n : Int32) : (int32 n).asInt32? = some n := by
  have bound := n.toUInt32.toNat_lt
  have tagged : (int32 n).isInt32 := by
    simp only [isInt32, upper32, toNat_int32, int32Tag, beq_iff_eq]
    omega
  have payload : (int32 n).payload = n.toUInt32.toNat := by
    simp only [Value.payload, toNat_int32, int32Tag]
    omega
  rw [asInt32?, if_pos tagged, payload, UInt32.ofNat_toNat, Int32.toInt32_toUInt32]

@[simp] theorem asNumber?_number (x : Binary64) :
    (number x).asNumber? = some (if x.isNaN then ⟨0x7FF8000000000000⟩ else x) := by
  unfold number
  split
  · decide
  next proper => exact asNumber?_of_isDouble (isDouble_of_not_isNaN proper)

theorem isInt32_of_asInt32? {n : Int32} (read : v.asInt32? = some n) : v.isInt32 := by
  rw [asInt32?, Option.ite_none_right_eq_some] at read
  exact read.1

theorem isNumber_of_asNumber? {x : Binary64} (read : v.asNumber? = some x) : v.isNumber := by
  unfold asNumber? at read
  split at read
  next integer => simp [isNumber, isInt32_of_asInt32? integer]
  next =>
    split at read
    next single => simp [isNumber, single]
    next =>
      split at read
      next double => simp [isNumber, double]
      next => contradiction

theorem isBoolean_of_asBoolean? {b : Bool} (read : v.asBoolean? = some b) : v.isBoolean := by
  unfold asBoolean? at read
  split at read
  next holds => simp [isBoolean, holds]
  next =>
    split at read
    next fails => simp [isBoolean, fails]
    next => contradiction

theorem is_of_read (answered : v.read acc = some p) : v.is acc.kind := by
  cases acc with
  | boolean =>
    obtain ⟨b, answered, -⟩ := Option.map_eq_some_iff.1 answered
    exact isBoolean_of_asBoolean? answered
  | int32 =>
    obtain ⟨n, answered, -⟩ := Option.map_eq_some_iff.1 answered
    simp [Accessor.kind, is, isNumber, isInt32_of_asInt32? answered]
  | number =>
    obtain ⟨x, answered, -⟩ := Option.map_eq_some_iff.1 answered
    exact isNumber_of_asNumber? answered
  | string =>
    obtain ⟨a, answered, -⟩ := Option.map_eq_some_iff.1 answered
    exact (Option.ite_none_right_eq_some.1 answered).1
  | symbol =>
    obtain ⟨s, answered, -⟩ := Option.map_eq_some_iff.1 answered
    exact (Option.ite_none_right_eq_some.1 answered).1
  | object =>
    obtain ⟨o, answered, -⟩ := Option.map_eq_some_iff.1 answered
    exact (Option.ite_none_right_eq_some.1 answered).1

theorem read_value (readable : p.accessor? = some acc) : p.value.read acc = some p.canonical := by
  cases p with
  | undefined => contradiction
  | null => contradiction
  | _ =>
    cases readable
    simp [read, Payload.value, Payload.canonical]

theorem kind_of_accessor? (readable : p.accessor? = some acc) : acc.kind = p.kind := by
  cases p with
  | undefined => contradiction
  | null => contradiction
  | _ =>
    cases readable
    rfl

theorem is_value (p : Payload) : p.value.is p.kind := by
  cases readable : p.accessor? with
  | some acc =>
    rw [← kind_of_accessor? readable]
    exact is_of_read (read_value readable)
  | none =>
    cases p with
    | undefined => decide
    | null => decide
    | _ => contradiction

theorem is_value_iff : p.value.is k ↔ k = p.kind := by
  constructor
  · intro holds
    exact kind_unique holds (is_value p)
  · rintro rfl
    exact is_value p

theorem number_canonical (x : Binary64) :
    number (if x.isNaN then ⟨0x7FF8000000000000⟩ else x) = number x := by
  split
  next nan =>
    rw [number, number, if_pos nan]
    rfl
  next => rfl

theorem value_canonical (p : Payload) : p.canonical.value = p.value := by
  cases p with
  | number x => exact number_canonical x
  | _ => rfl

/-- Payloads with one word are read by one accessor: the word of an integer is no double. -/
theorem accessor?_eq_of_value (same : p.value = q.value) : p.accessor? = q.accessor? := by
  have kinds : p.kind = q.kind := is_value_iff.1 (same ▸ is_value p)
  have integer (n : Int32) (x : Binary64) : int32 n ≠ number x := by
    intro same
    have := asInt32?_number x
    rw [← same, asInt32?_int32] at this
    contradiction
  cases p <;> cases q <;> simp_all [Payload.kind, Payload.accessor?, Payload.value]
  exact integer _ _ same.symm

theorem eq_of_unreadable (first : p.accessor? = none) (second : q.accessor? = none)
    (kinds : p.kind = q.kind) : p = q := by
  cases p <;> cases q <;> simp_all [Payload.kind, Payload.accessor?]

theorem value_eq_iff : p.value = q.value ↔ p.canonical = q.canonical := by
  constructor
  · intro same
    have accessors := accessor?_eq_of_value same
    cases readable : p.accessor? with
    | some acc =>
      have read := read_value readable
      rw [same, read_value (accessors ▸ readable)] at read
      exact (Option.some.inj read).symm
    | none =>
      rw [readable] at accessors
      have kinds : p.kind = q.kind := is_value_iff.1 (same ▸ is_value p)
      rw [eq_of_unreadable readable accessors.symm kinds]
  · intro same
    rw [← value_canonical p, same, value_canonical]

/-- A word has one kind at most, and an accessor answers under its own kind only. A built value
has the kind of its payload and no other, and its accessor gives the payload back, NaN for every
NaN; no double is read as an integer. Payloads of one word are equal, with all NaNs counted as
one. Masks tell the kinds apart, and words and values are the same data. -/
theorem boxing_unambiguous (v : Value) (p q : Payload) :
    (∀ k k', v.is k → v.is k' → k = k') ∧
    (∀ acc read, v.read acc = some read → v.is acc.kind) ∧
    (∀ k, p.value.is k ↔ k = p.kind) ∧
    (∀ acc, p.accessor? = some acc → p.value.read acc = some p.canonical) ∧
    (v.isDouble → v.asInt32? = none) ∧
    (∀ x, (number x).asInt32? = none) ∧
    (p.value.bits = q.value.bits ↔ p.canonical = q.canonical) ∧
    (∀ k, v.is k ↔ k.Masked v.bits) ∧
    ⟨v.bits⟩ = v ∧ ∀ word, (Value.mk word).bits = word := by
  refine ⟨?_, ?_, ?_, ?_, asInt32?_of_isDouble, asInt32?_number, ?_, fun _ => is_iff_masked,
    rfl, fun _ => rfl⟩
  · intro k k' first second
    exact kind_unique first second
  · intro acc read answered
    exact is_of_read answered
  · intro k
    exact is_value_iff
  · intro acc readable
    exact read_value readable
  · rw [← value_eq_iff, Value.mk.injEq]

theorem zero_unambiguous :
    (⟨0x7FFC000000000000⟩ : Value).is .object ∧ ¬ (⟨0x7FFC000000000000⟩ : Value).is .number ∧
      (Payload.number ⟨0xFFF8000000000000⟩).value.bits =
        (Payload.number ⟨0x7FF0000000000001⟩).value.bits ∧
      (Payload.int32 0).value.bits ≠ (Payload.number ⟨0⟩).value.bits := by
  have tagged : (⟨0x7FFC000000000000⟩ : Value).is .object := by decide
  refine ⟨tagged, fun number => ?_, ?_, fun same => ?_⟩
  · obtain ⟨unique, -⟩ := boxing_unambiguous ⟨0x7FFC000000000000⟩ .null .null
    exact absurd (unique _ _ tagged number) (by decide)
  · obtain ⟨-, -, -, -, -, -, one, -⟩ :=
      boxing_unambiguous null (.number ⟨0xFFF8000000000000⟩) (.number ⟨0x7FF0000000000001⟩)
    exact one.2 (by decide)
  · obtain ⟨-, -, -, -, -, -, one, -⟩ := boxing_unambiguous null (.int32 0) (.number ⟨0⟩)
    exact absurd (one.1 same) (by decide)

end ProxyEngine.Value
