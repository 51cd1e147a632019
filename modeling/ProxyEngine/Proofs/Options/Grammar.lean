import Mathlib.Data.List.TakeWhile
import ProxyEngine.Options.Document
import ProxyEngine.Proofs.Text.Digits

/-! The grammar of documents. It says which texts write a document, without saying how a
text is read; the checks that the reader makes on strings and numbers are shown to be the
ones the grammar asks for. -/

namespace ProxyEngine.Document

def Blank (cs : List Char) : Prop :=
  ∀ c ∈ cs, isBlank c = true

inductive Body : List Char → Prop
  | empty : Body []
  | plain {c : Char} {s : List Char} :
      isControl c = false → c ≠ '"' → c ≠ '\\' → Body s → Body (c :: s)
  | short {e : Char} {s : List Char} :
      (shortEscape? e).isSome → Body s → Body ('\\' :: e :: s)
  | unit {a b c d : Char} {s : List Char} :
      [a, b, c, d].all Digits.isHexDigit = true → Body s →
      Body ('\\' :: 'u' :: a :: b :: c :: d :: s)

/-- The text that the body of a string spells. A code unit that is half of a character
spells it together with the other half, and spells nothing alone. -/
inductive Spells : List Char → List Char → Prop
  | empty : Spells [] []
  | plain {c : Char} {s t : List Char} :
      isControl c = false → c ≠ '"' → c ≠ '\\' → Spells s t → Spells (c :: s) (c :: t)
  | short {e c : Char} {s t : List Char} :
      shortEscape? e = some c → Spells s t → Spells ('\\' :: e :: s) (c :: t)
  | unit {a b c d : Char} {s t : List Char} :
      [a, b, c, d].all Digits.isHexDigit = true →
      isHighSurrogate (Digits.hexValue [a, b, c, d]) = false →
      isLowSurrogate (Digits.hexValue [a, b, c, d]) = false → Spells s t →
      Spells ('\\' :: 'u' :: a :: b :: c :: d :: s)
        (.ofNat (Digits.hexValue [a, b, c, d]) :: t)
  | pair {a b c d e f g h : Char} {s t : List Char} :
      [a, b, c, d].all Digits.isHexDigit = true → [e, f, g, h].all Digits.isHexDigit = true →
      isHighSurrogate (Digits.hexValue [a, b, c, d]) = true →
      isLowSurrogate (Digits.hexValue [e, f, g, h]) = true → Spells s t →
      Spells ('\\' :: 'u' :: a :: b :: c :: d :: '\\' :: 'u' :: e :: f :: g :: h :: s)
        (joinSurrogates (Digits.hexValue [a, b, c, d]) (Digits.hexValue [e, f, g, h]) :: t)

inductive Fraction : List Char → Prop
  | absent : Fraction []
  | digits {ds : List Char} : isDigits ds = true → Fraction ('.' :: ds)

inductive Exponent : List Char → Prop
  | absent : Exponent []
  | digits {e : Char} {sign ds : List Char} :
      e = 'e' ∨ e = 'E' → sign = [] ∨ sign = ['+'] ∨ sign = ['-'] → isDigits ds = true →
      Exponent (e :: (sign ++ ds))

inductive Numeral : List Char → Prop
  | parts {sign whole fraction exponent : List Char} :
      sign = [] ∨ sign = ['-'] → Digits.Canonical whole → Fraction fraction →
      Exponent exponent → Numeral (sign ++ (whole ++ (fraction ++ exponent)))

/-- What a stretch of text can write: a document, the items of an array or the members of
an object. -/
inductive Phrase where
  | document (d : Document)
  | items (ds : List Document)
  | members (ms : List (List Char × Document))

inductive Writes : Phrase → List Char → Prop
  | null : Writes (.document .null) "null".toList
  | yes : Writes (.document (.bool true)) "true".toList
  | no : Writes (.document (.bool false)) "false".toList
  | number {w : List Char} : Numeral w → Writes (.document (.number w)) w
  | string {s : List Char} : Body s → Writes (.document (.string s)) ('"' :: (s ++ ['"']))
  | noItems {b : List Char} : Blank b → Writes (.document (.array [])) ('[' :: (b ++ [']']))
  | array {ds : List Document} {t : List Char} :
      Writes (.items ds) t → Writes (.document (.array ds)) ('[' :: (t ++ [']']))
  | noMembers {b : List Char} :
      Blank b → Writes (.document (.object [])) ('{' :: (b ++ ['}']))
  | object {ms : List (List Char × Document)} {t : List Char} :
      Writes (.members ms) t → Writes (.document (.object ms)) ('{' :: (t ++ ['}']))
  | item {d : Document} {b t b' : List Char} :
      Blank b → Writes (.document d) t → Blank b' → Writes (.items [d]) (b ++ (t ++ b'))
  | nextItem {d : Document} {ds : List Document} {b t b' ts : List Char} :
      Blank b → Writes (.document d) t → Blank b' → Writes (.items ds) ts →
      Writes (.items (d :: ds)) (b ++ (t ++ (b' ++ ',' :: ts)))
  | member {s : List Char} {d : Document} {b b₁ b₂ t b₃ : List Char} :
      Blank b → Body s → Blank b₁ → Blank b₂ → Writes (.document d) t → Blank b₃ →
      Writes (.members [(s, d)]) (b ++ '"' :: (s ++ '"' :: (b₁ ++ ':' :: (b₂ ++ (t ++ b₃)))))
  | nextMember {s : List Char} {d : Document} {ms : List (List Char × Document)}
      {b b₁ b₂ t b₃ ts : List Char} :
      Blank b → Body s → Blank b₁ → Blank b₂ → Writes (.document d) t → Blank b₃ →
      Writes (.members ms) ts →
      Writes (.members ((s, d) :: ms))
        (b ++ '"' :: (s ++ '"' :: (b₁ ++ ':' :: (b₂ ++ (t ++ (b₃ ++ ',' :: ts))))))

inductive Text (d : Document) : List Char → Prop
  | mk {b t b' : List Char} :
      Blank b → Writes (.document d) t → Blank b' → Text d (b ++ (t ++ b'))

variable {c : Char} {s t rest : List Char}

def Phrase.Named : Phrase → Prop
  | .members ms => ∀ m ∈ ms, Body m.1
  | _ => True

theorem Writes.named {p : Phrase} (writes : Writes p t) : p.Named := by
  induction writes with
  | member _ body => exact List.forall_mem_singleton.2 body
  | nextMember _ body _ _ _ _ _ _ later => exact List.forall_mem_cons.2 ⟨body, later⟩
  | _ => trivial

theorem Text.bodies {ms : List (List Char × Document)} (text : Text (.object ms) t) :
    ∀ m ∈ ms, Body m.1 := by
  obtain ⟨_, writes, _⟩ := text
  cases writes with
  | noMembers => nofun
  | object members => exact members.named

/-! Runs of characters. -/

/-- The text does not go on with such a character. -/
def Stops (p : Char → Bool) (cs : List Char) : Prop :=
  ∀ c ∈ cs.head?, p c = false

theorem stops_nil (p : Char → Bool) : Stops p [] := nofun

theorem stops_cons {p : Char → Bool} (other : p c = false) : Stops p (c :: rest) := by
  rintro _ ⟨⟩
  exact other

theorem takeWhile_run {p : Char → Bool} {xs ys : List Char} (all : ∀ c ∈ xs, p c = true)
    (stops : Stops p ys) : (xs ++ ys).takeWhile p = xs := by
  have none : ys.takeWhile p = [] := by
    cases ys with
    | nil => rfl
    | cons y ys => exact List.takeWhile_cons_of_neg (by simp [stops y rfl])
  rw [List.takeWhile_append_of_pos all, none, List.append_nil]

theorem dropWhile_run {p : Char → Bool} {xs ys : List Char} (all : ∀ c ∈ xs, p c = true)
    (stops : Stops p ys) : (xs ++ ys).dropWhile p = ys := by
  rw [List.dropWhile_append_of_pos all]
  cases ys with
  | nil => rfl
  | cons y ys => exact List.dropWhile_cons_of_neg (by simp [stops y rfl])

theorem skipBlanks_append (blank : Blank s) : skipBlanks (s ++ rest) = skipBlanks rest :=
  List.dropWhile_append_of_pos blank

theorem skipBlanks_cons (other : isBlank c = false) : skipBlanks (c :: rest) = c :: rest :=
  List.dropWhile_cons_of_neg (by simp [other])

theorem skipBlanks_token (blank : Blank s) (other : isBlank c = false) :
    skipBlanks (s ++ c :: rest) = c :: rest := by
  rw [skipBlanks_append blank, skipBlanks_cons other]

theorem exists_blank (cs : List Char) : ∃ b, Blank b ∧ cs = b ++ skipBlanks cs :=
  ⟨cs.takeWhile isBlank, fun _ => List.mem_takeWhile_imp, List.takeWhile_append_dropWhile.symm⟩

/-! Strings. -/

theorem scanString_plain (quote : c ≠ '"') (escape : c ≠ '\\') :
    scanString (c :: rest) =
      if isControl c then none else (scanString rest).map fun (s, t) => (c :: s, t) := by
  rw [scanString] <;> simp_all

theorem scanString_short {e : Char} (notUnit : e ≠ 'u') :
    scanString ('\\' :: e :: rest) =
      if (shortEscape? e).isSome then (scanString rest).map fun (s, t) => ('\\' :: e :: s, t)
      else none := by
  rw [scanString]
  simp_all

theorem scanString_of_body (body : Body s) :
    scanString (s ++ '"' :: rest) = some (s, rest) := by
  induction body with
  | empty => rfl
  | plain printable quote escape _ ih =>
    simp only [List.cons_append, scanString_plain quote escape, printable, ih]
    rfl
  | @short e s known _ ih =>
    have notUnit : e ≠ 'u' := by
      rintro rfl
      cases known
    simp only [List.cons_append, scanString_short notUnit, known, ih]
    rfl
  | unit hex _ ih =>
    simp only [List.cons_append, scanString, hex, ih]
    rfl

theorem body_of_scanString {cs : List Char} (scanned : scanString cs = some (s, rest)) :
    Body s ∧ cs = s ++ '"' :: rest := by
  fun_induction scanString cs generalizing s with
  | case1 => cases scanned
  | case2 rest' =>
    cases scanned
    exact ⟨.empty, rfl⟩
  | case3 a b c d cs hex ih =>
    obtain ⟨⟨s', rest'⟩, scanned, ⟨⟩⟩ := Option.map_eq_some_iff.1 scanned
    obtain ⟨body, rfl⟩ := ih scanned
    exact ⟨.unit hex body, rfl⟩
  | case4 => cases scanned
  | case5 e cs _ known ih =>
    obtain ⟨⟨s', rest'⟩, scanned, ⟨⟩⟩ := Option.map_eq_some_iff.1 scanned
    obtain ⟨body, rfl⟩ := ih scanned
    exact ⟨.short known body, rfl⟩
  | case6 => cases scanned
  | case7 => cases scanned
  | case8 c cs quote _ _ printable ih =>
    obtain ⟨⟨s', rest'⟩, scanned, ⟨⟩⟩ := Option.map_eq_some_iff.1 scanned
    obtain ⟨body, rfl⟩ := ih scanned
    rw [Bool.or_eq_true, not_or, Bool.not_eq_true, beq_iff_eq] at printable
    exact ⟨.plain printable.1 quote printable.2 body, rfl⟩

theorem body_of_quoted (scanned : scanString (s ++ ['"']) = some (s, [])) : Body s :=
  (body_of_scanString scanned).1

theorem Spells.body (spells : Spells s t) : Body s := by
  induction spells with
  | empty => exact .empty
  | plain printable quote escape _ ih => exact .plain printable quote escape ih
  | short known _ ih => exact .short (Option.isSome_iff_exists.2 ⟨_, known⟩) ih
  | unit hex _ _ _ ih => exact .unit hex ih
  | pair hex hex' _ _ _ ih => exact .unit hex (.unit hex' ih)

theorem spells_self
    (plain : ∀ c ∈ s, isControl c = false ∧ c ≠ '"' ∧ c ≠ '\\') : Spells s s := by
  induction s with
  | nil => exact .empty
  | cons c s ih =>
    obtain ⟨⟨printable, quote, escape⟩, plain⟩ := List.forall_mem_cons.1 plain
    exact .plain printable quote escape (ih plain)

theorem Body.unit_inv {a b c d : Char} (body : Body ('\\' :: 'u' :: a :: b :: c :: d :: s)) :
    [a, b, c, d].all Digits.isHexDigit = true ∧ Body s := by
  cases body with
  | plain _ _ escape _ => exact absurd rfl escape
  | short known _ => cases known
  | unit hex body => exact ⟨hex, body⟩

theorem unescape?_short {e : Char} (known : shortEscape? e = some c) :
    unescape? ('\\' :: e :: s) = (unescape? s).map (c :: ·) := by
  have notUnit : e ≠ 'u' := by
    rintro rfl
    cases known
  rw [unescape?]
  · rw [known]
  · simp [notUnit]

theorem unescape?_plain (escape : c ≠ '\\') :
    unescape? (c :: s) = (unescape? s).map (c :: ·) := by
  rw [unescape?] <;> simp_all

theorem unescape?_unit {a b c d : Char}
    (high : isHighSurrogate (Digits.hexValue [a, b, c, d]) = false)
    (low : isLowSurrogate (Digits.hexValue [a, b, c, d]) = false) :
    unescape? ('\\' :: 'u' :: a :: b :: c :: d :: s) =
      (unescape? s).map (.ofNat (Digits.hexValue [a, b, c, d]) :: ·) := by
  rw [unescape?.eq_def]
  simp only [high, low, Bool.false_eq_true, if_false]

theorem not_isLowSurrogate {u : Nat} (high : isHighSurrogate u = true) :
    isLowSurrogate u = false := by
  simp only [isHighSurrogate, isLowSurrogate, Bool.and_eq_true, decide_eq_true_eq,
    Bool.and_eq_false_iff, decide_eq_false_iff_not] at *
  omega

theorem unescape?_of_spells (spells : Spells s t) : unescape? s = some t := by
  induction spells with
  | empty => rfl
  | plain _ _ escape _ ih => rw [unescape?_plain escape, ih, Option.map_some]
  | short known _ ih => rw [unescape?_short known, ih, Option.map_some]
  | unit _ high low _ ih => rw [unescape?_unit high low, ih, Option.map_some]
  | pair _ _ high low _ ih => simp [unescape?, high, not_isLowSurrogate high, low, ih]

theorem spells_of_unescape? (body : Body s) (spelled : unescape? s = some t) : Spells s t := by
  fun_induction unescape? s generalizing t with
  | case1 =>
    cases spelled
    exact .empty
  | case2 => cases spelled
  | case3 a b c d u _ high e f g h rest low isLow =>
    rename_i ih
    obtain ⟨hex, body⟩ := body.unit_inv
    obtain ⟨hex', body⟩ := body.unit_inv
    obtain ⟨t, tail, rfl⟩ := Option.map_eq_some_iff.1 spelled
    exact .pair hex hex' high isLow (ih body tail)
  | case4 => cases spelled
  | case5 => cases spelled
  | case6 a b c d rest u low high =>
    rename_i ih
    obtain ⟨hex, body⟩ := body.unit_inv
    obtain ⟨t, tail, rfl⟩ := Option.map_eq_some_iff.1 spelled
    exact .unit hex (by simpa using high) (by simpa using low) (ih body tail)
  | case7 e rest notUnit c known ih =>
    obtain ⟨t, tail, rfl⟩ := Option.map_eq_some_iff.1 spelled
    cases body with
    | plain _ _ escape _ => exact absurd rfl escape
    | short _ body => exact .short known (ih body tail)
    | unit _ body => cases known
  | case8 => cases spelled
  | case9 c rest _ notEscape ih =>
    obtain ⟨t, tail, rfl⟩ := Option.map_eq_some_iff.1 spelled
    cases body with
    | plain printable quote escape body => exact .plain printable quote escape (ih body tail)
    | short => exact (notEscape _ _ rfl rfl).elim
    | unit => exact (notEscape _ _ rfl rfl).elim

/-! Numbers. -/

theorem isDigits_iff {ds : List Char} :
    isDigits ds = true ↔ ds ≠ [] ∧ ∀ c ∈ ds, c.isDigit = true := by
  simp [isDigits]

theorem isPlainInteger_iff {ds : List Char} : isPlainInteger ds = true ↔ Digits.Canonical ds := by
  rw [isPlainInteger, Bool.and_eq_true, isDigits_iff]
  constructor
  · rintro ⟨⟨nonempty, digits⟩, leading⟩
    refine ⟨nonempty, digits, fun zero => ?_⟩
    simpa [zero] using leading
  · rintro ⟨nonempty, digits, leading⟩
    refine ⟨⟨nonempty, digits⟩, ?_⟩
    by_cases zero : ds.head? = some '0'
    · simp [leading zero]
    · simp [zero]

theorem isSigned_iff :
    isSigned isDigits s = true ↔
      ∃ sign ds, (sign = [] ∨ sign = ['+'] ∨ sign = ['-']) ∧ isDigits ds = true ∧
        s = sign ++ ds := by
  constructor
  · intro signed
    unfold isSigned at signed
    split at signed
    next ds => exact ⟨['+'], ds, .inr (.inl rfl), signed, rfl⟩
    next ds => exact ⟨['-'], ds, .inr (.inr rfl), signed, rfl⟩
    next => exact ⟨[], s, .inl rfl, signed, rfl⟩
  · rintro ⟨sign, ds, rfl | rfl | rfl, digits, rfl⟩
    · -- A digit is no sign.
      unfold isSigned
      split
      next ds => exact absurd ((isDigits_iff.1 digits).2 '+' (by simp)) (by decide)
      next ds => exact absurd ((isDigits_iff.1 digits).2 '-' (by simp)) (by decide)
      next => exact digits
    · exact digits
    · exact digits

theorem isExponentPart_iff : isExponentPart s = true ↔ Exponent s := by
  constructor
  · intro part
    cases s with
    | nil => exact .absent
    | cons c s =>
      simp only [isExponentPart, Bool.and_eq_true, Bool.or_eq_true, beq_iff_eq] at part
      obtain ⟨sign, ds, signs, digits, rfl⟩ := isSigned_iff.1 part.2
      exact .digits part.1 signs digits
  · rintro (_ | ⟨letter, signs, digits⟩)
    · rfl
    · simp only [isExponentPart, Bool.and_eq_true, Bool.or_eq_true, beq_iff_eq]
      exact ⟨letter, isSigned_iff.2 ⟨_, _, signs, digits, rfl⟩⟩

theorem Exponent.stops (exponent : Exponent s) : Stops Char.isDigit s := by
  cases exponent with
  | absent => exact stops_nil _
  | digits letter =>
    apply stops_cons
    rcases letter with rfl | rfl <;> rfl

theorem isFractionPart_iff :
    isFractionPart s = true ↔
      ∃ fraction exponent, Fraction fraction ∧ Exponent exponent ∧ s = fraction ++ exponent := by
  constructor
  · intro part
    unfold isFractionPart at part
    split at part
    next s =>
      rw [Bool.and_eq_true] at part
      refine ⟨_, _, .digits part.1, isExponentPart_iff.1 part.2, ?_⟩
      rw [List.cons_append, List.takeWhile_append_dropWhile]
    next => exact ⟨[], s, .absent, isExponentPart_iff.1 part, rfl⟩
  · rintro ⟨_, exponent, (_ | @⟨ds, digits⟩), power, rfl⟩
    · -- An exponent starts with a letter, not with a point.
      unfold isFractionPart
      split
      next =>
        cases power with
        | digits letter => rcases letter with equal | equal <;> cases equal
      next => exact isExponentPart_iff.2 power
    · have all := (isDigits_iff.1 digits).2
      simp only [List.cons_append, isFractionPart, takeWhile_run all power.stops,
        dropWhile_run all power.stops, digits, isExponentPart_iff.2 power, Bool.and_self]

theorem Fraction.stops {exponent : List Char} (fraction : Fraction s)
    (power : Exponent exponent) : Stops Char.isDigit (s ++ exponent) := by
  cases fraction with
  | absent => exact power.stops
  | digits => exact stops_cons rfl

theorem isUnsigned_iff :
    (isPlainInteger (s.takeWhile Char.isDigit) && isFractionPart (s.dropWhile Char.isDigit)) =
        true ↔
      ∃ whole fraction exponent, Digits.Canonical whole ∧ Fraction fraction ∧
        Exponent exponent ∧ s = whole ++ (fraction ++ exponent) := by
  rw [Bool.and_eq_true, isPlainInteger_iff, isFractionPart_iff]
  constructor
  · rintro ⟨digits, fraction, exponent, point, power, rest⟩
    refine ⟨_, fraction, exponent, digits, point, power, ?_⟩
    rw [← rest, List.takeWhile_append_dropWhile]
  · rintro ⟨whole, fraction, exponent, digits, point, power, rfl⟩
    have stops := point.stops power
    rw [takeWhile_run digits.digits stops, dropWhile_run digits.digits stops]
    exact ⟨digits, fraction, exponent, point, power, rfl⟩

theorem isNumber_iff {w : List Char} : isNumber w = true ↔ Numeral w := by
  constructor
  · intro number
    unfold isNumber at number
    split at number
    next negative =>
      rw [beq_iff_eq, List.head?_eq_some_iff] at negative
      obtain ⟨cs, rfl⟩ := negative
      obtain ⟨whole, fraction, exponent, digits, point, power, rfl⟩ := isUnsigned_iff.1 number
      exact .parts (.inr rfl) digits point power
    next =>
      obtain ⟨whole, fraction, exponent, digits, point, power, rfl⟩ := isUnsigned_iff.1 number
      exact .parts (.inl rfl) digits point power
  · rintro @⟨sign, whole, fraction, exponent, signs, digits, point, power⟩
    have parts := isUnsigned_iff.2 ⟨whole, fraction, exponent, digits, point, power, rfl⟩
    rcases signs with rfl | rfl
    · -- The first character is a digit, not a minus.
      have positive : ((whole ++ (fraction ++ exponent)).head? == some '-') = false := by
        obtain ⟨c, cs, rfl⟩ := List.exists_cons_of_ne_nil digits.nonempty
        have digit := digits.digits c List.mem_cons_self
        simp only [List.cons_append, List.head?_cons, beq_eq_false_iff_ne, ne_eq,
          Option.some.injEq]
        rintro rfl
        cases digit
      rw [List.nil_append, isNumber, positive]
      exact parts
    · exact parts

theorem numeral_toDigits (n : Nat) : Numeral (Nat.toDigits 10 n) := by
  simpa using Numeral.parts (.inl rfl) (Digits.canonical_toDigits n) .absent .absent

theorem isNumberChar_of_isDigit (digit : c.isDigit = true) : isNumberChar c = true := by
  simp [isNumberChar, digit]

theorem Numeral.characters {w : List Char} (numeral : Numeral w) :
    ∀ c ∈ w, isNumberChar c = true := by
  obtain ⟨signs, digits, point, power⟩ := numeral
  have run {ds : List Char} (all : isDigits ds = true) : ∀ c ∈ ds, isNumberChar c = true :=
    fun c listed => isNumberChar_of_isDigit ((isDigits_iff.1 all).2 c listed)
  simp only [List.forall_mem_append]
  refine ⟨?_, fun c listed => isNumberChar_of_isDigit (digits.digits c listed), ?_, ?_⟩
  · rcases signs with rfl | rfl
    · nofun
    · exact List.forall_mem_singleton.2 rfl
  · cases point with
    | absent => nofun
    | digits all => exact List.forall_mem_cons.2 ⟨rfl, run all⟩
  · cases power with
    | absent => nofun
    | digits letter signs all =>
      refine List.forall_mem_cons.2 ⟨?_, List.forall_mem_append.2 ⟨?_, run all⟩⟩
      · rcases letter with rfl | rfl <;> rfl
      · rcases signs with rfl | rfl | rfl
        · nofun
        all_goals exact List.forall_mem_singleton.2 rfl

end ProxyEngine.Document
