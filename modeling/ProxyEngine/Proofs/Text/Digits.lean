import ProxyEngine.Text.Digits

/-! Decimal spellings. Every number has one spelling without leading zeros, and a
run of digits without leading zeros is the spelling of its value. -/

namespace ProxyEngine.Digits

/-- Decimal digits, at least one, of which a zero comes first only when it is the only one. -/
structure Canonical (ds : List Char) : Prop where
  nonempty : ds ≠ []
  digits : ∀ c ∈ ds, c.isDigit = true
  leading : ds.head? = some '0' → ds.length = 1

theorem value_eq_ofDigitChars (ds : List Char) : value ds = Nat.ofDigitChars 10 ds 0 := by
  have step : (fun (n : Nat) (c : Char) => n * 10 + (c.toNat - '0'.toNat)) =
      fun n c => 10 * n + (c.toNat - '0'.toNat) := by
    funext n c
    omega
  rw [value, Nat.ofDigitChars_eq_foldl, step]

@[simp] theorem value_toDigits (n : Nat) : value (Nat.toDigits 10 n) = n := by
  rw [value_eq_ofDigitChars, Nat.ofDigitChars_ten_toDigits]

theorem digitChar_value {c : Char} (digit : c.isDigit = true) :
    c.toNat - '0'.toNat < 10 ∧ Nat.digitChar (c.toNat - '0'.toNat) = c := by
  have bounds : 48 ≤ c.toNat ∧ c.toNat ≤ 57 := by
    simpa using Char.isDigit_iff_toNat.1 digit
  have small : c.toNat - '0'.toNat < 10 := by
    simp only [Char.reduceToNat]
    omega
  refine ⟨small, ?_⟩
  apply Char.toNat_inj.1
  rw [Nat.toNat_digitChar_of_lt_ten small]
  simp only [Char.reduceToNat]
  omega

theorem toDigits_ofDigitChars {ds : List Char} (digits : ∀ c ∈ ds, c.isDigit = true) {n : Nat}
    (pos : 0 < n) : Nat.toDigits 10 (Nat.ofDigitChars 10 ds n) = Nat.toDigits 10 n ++ ds := by
  induction ds generalizing n with
  | nil => simp
  | cons c cs ih =>
    have digit := digitChar_value (digits c (by simp))
    have rest : ∀ d ∈ cs, d.isDigit = true := by
      intro d later
      exact digits d (by simp [later])
    have here : Nat.toDigits 10 (10 * n + (c.toNat - '0'.toNat)) = Nat.toDigits 10 n ++ [c] := by
      rw [← Nat.toDigits_append_toDigits (by decide) pos digit.1, Nat.toDigits_of_lt_base digit.1,
        digit.2]
    rw [Nat.ofDigitChars_cons, ih rest (by omega), here, List.append_assoc, List.singleton_append]

theorem Canonical.toDigits_value {ds : List Char} (canonical : Canonical ds) :
    Nat.toDigits 10 (value ds) = ds := by
  obtain ⟨nonempty, digits, leading⟩ := canonical
  cases ds with
  | nil => contradiction
  | cons c cs =>
    have digit := digitChar_value (digits c (by simp))
    rw [value_eq_ofDigitChars, Nat.ofDigitChars_cons, Nat.mul_zero, Nat.zero_add]
    by_cases zero : c = '0'
    · have alone : cs = [] := by simpa [zero] using leading
      simp [zero, alone]
    · have pos : 0 < c.toNat - '0'.toNat := by
        apply Nat.pos_of_ne_zero
        intro none
        apply zero
        rw [← digit.2, none]
        rfl
      rw [toDigits_ofDigitChars (fun d later => digits d (by simp [later])) pos,
        Nat.toDigits_of_lt_base digit.1, digit.2, List.singleton_append]

theorem head?_toDigits_of_pos {n : Nat} (pos : 0 < n) : (Nat.toDigits 10 n).head? ≠ some '0' := by
  induction n using Nat.base_induction 10 (by decide) with
  | single m small =>
    simp only [Nat.toDigits_of_lt_base small, List.head?_cons, ne_eq, Option.some.injEq,
      Nat.digitChar_eq_zero]
    omega
  | digit m k small lead ih =>
    have first := List.head?_eq_some_head (Nat.toDigits_ne_nil (n := m) (b := 10))
    rw [← Nat.toDigits_append_toDigits (n := m) (by decide) lead small, List.head?_append,
      first, Option.some_or, ← first]
    exact ih lead

theorem canonical_toDigits (n : Nat) : Canonical (Nat.toDigits 10 n) where
  nonempty := Nat.toDigits_ne_nil
  digits _ listed := Nat.isDigit_of_mem_toDigits (by decide) (by decide) listed
  leading zero := by
    obtain rfl | pos := Nat.eq_zero_or_pos n
    · rfl
    · exact absurd zero (head?_toDigits_of_pos pos)

end ProxyEngine.Digits
