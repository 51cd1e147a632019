import ProxyEngine.Options
import ProxyEngine.Proofs.Options.Reading

/-! Options and the documents they are read from. An object is read as the defaults
overwritten by the members that give a field, in whatever order and among whatever other
members they stand, and as an error when it gives a field twice or gives it something that
does not fit. The written form of options gives every field, so it is read back. -/

namespace ProxyEngine

open Document

namespace ContextOptions

variable {o o' : ContextOptions} {f g : Field} {d : Document} {n : Nat} {text : String}
variable {m : List Char × Document} {ms : List (List Char × Document)}

theorem get_lt_limit (o : ContextOptions) (f : Field) : o.get f < f.limit := by
  cases f with
  | maxDispatchDepth => exact o.maxDispatchDepth.toNat_lt
  | initialHeapCapacity => exact o.initialHeapCapacity.toNat_lt
  | gcThreshold => exact o.gcThreshold.toNat_lt

theorem get_set (fits : n < f.limit) (g : Field) :
    (o.set f n).get g = if g = f then n else o.get g := by
  cases f <;> cases g <;>
    simp only [set, get, reduceCtorEq, if_true, if_false, UInt32.toNat_ofNat',
      UInt64.toNat_ofNat'] <;>
    exact Nat.mod_eq_of_lt fits

theorem ext_get (same : ∀ f, o.get f = o'.get f) : o = o' := by
  obtain ⟨depth, capacity, threshold⟩ := o
  obtain ⟨depth', capacity', threshold'⟩ := o'
  have depths : depth = depth' := UInt32.toNat_inj.1 (same .maxDispatchDepth)
  have capacities : capacity = capacity' := UInt64.toNat_inj.1 (same .initialHeapCapacity)
  have thresholds : threshold = threshold' := UInt64.toNat_inj.1 (same .gcThreshold)
  rw [depths, capacities, thresholds]

theorem Field.ofName?_eq_some_iff {name : List Char} :
    Field.ofName? name = some f ↔ name = f.name.toList := by
  constructor
  · intro found
    have same := List.find?_some found
    exact (beq_iff_eq.1 same).symm
  · rintro rfl
    exact Field.ofName?_name f

/-- The document is a plain integer that the field can hold. -/
def Fits (f : Field) (n : Nat) (d : Document) : Prop :=
  n < f.limit ∧ d = .number (Nat.toDigits 10 n)

theorem assign?_eq_some_iff : o.assign? f d = some o' ↔ ∃ n, Fits f n d ∧ o.set f n = o' := by
  constructor
  · intro assigned
    unfold assign? at assigned
    split at assigned
    next w =>
      split at assigned
      next plain =>
        rw [Bool.and_eq_true, isPlainInteger_iff, decide_eq_true_eq] at plain
        refine ⟨Digits.value w, ⟨plain.2, ?_⟩, Option.some.inj assigned⟩
        rw [plain.1.toDigits_value]
      next => cases assigned
    next => cases assigned
  · rintro ⟨n, ⟨small, rfl⟩, rfl⟩
    have plain := isPlainInteger_iff.2 (Digits.canonical_toDigits n)
    simp [assign?, plain, Digits.value_toDigits, small]

/-- The member gives this field: its name spells the name of the field. -/
def Gives (f : Field) (m : List Char × Document) : Prop :=
  Spells m.1 f.name.toList

theorem Gives.unique (gives : Gives f m) (gives' : Gives g m) : f = g := by
  have names := (unescape?_of_spells gives).symm.trans (unescape?_of_spells gives')
  have field := Field.ofName?_name f
  rw [Option.some.inj names, Field.ofName?_name] at field
  exact (Option.some.inj field).symm

def Once (ms : List (List Char × Document)) : Prop :=
  ms.Pairwise fun m m' => ∀ f, Gives f m → ¬ Gives f m'

/-- The options after the members: a field that is given has the number it is given, and every
other field is as it was. -/
structure Overwrites (o : ContextOptions) (ms : List (List Char × Document))
    (o' : ContextOptions) : Prop where
  spelled : ∀ m ∈ ms, ∃ name, Spells m.1 name
  once : Once ms
  given : ∀ m ∈ ms, ∀ f, Gives f m → Fits f (o'.get f) m.2
  others : ∀ f, (∀ m ∈ ms, ¬ Gives f m) → o'.get f = o.get f

theorem Overwrites.unique {o'' : ContextOptions} (overwrites : Overwrites o ms o')
    (overwrites' : Overwrites o ms o'') : o' = o'' := by
  refine ext_get fun f => ?_
  by_cases given : ∃ m ∈ ms, Gives f m
  · obtain ⟨m, listed, gives⟩ := given
    have number := (overwrites.given m listed f gives).2
    rw [(overwrites'.given m listed f gives).2, Document.number.injEq] at number
    rw [← Digits.value_toDigits (o'.get f), ← number, Digits.value_toDigits]
  · have absent : ∀ m ∈ ms, ¬ Gives f m := fun m listed gives => given ⟨m, listed, gives⟩
    rw [overwrites.others f absent, overwrites'.others f absent]

theorem overwrites_nil : Overwrites o [] o' ↔ o = o' := by
  constructor
  · intro overwrites
    exact ext_get fun f => (overwrites.others f nofun).symm
  · rintro rfl
    exact ⟨nofun, List.Pairwise.nil, nofun, fun _ _ => rfl⟩

theorem overwrites_other {name : List Char} (spells : Spells m.1 name) (other : ∀ f, ¬ Gives f m) :
    Overwrites o (m :: ms) o' ↔ Overwrites o ms o' := by
  constructor
  · rintro ⟨spelled, once, given, others⟩
    refine ⟨fun m' listed => spelled m' (List.mem_cons_of_mem _ listed), once.of_cons,
      fun m' listed => given m' (List.mem_cons_of_mem _ listed), fun f absent => others f ?_⟩
    exact List.forall_mem_cons.2 ⟨other f, absent⟩
  · rintro ⟨spelled, once, given, others⟩
    refine ⟨List.forall_mem_cons.2 ⟨⟨name, spells⟩, spelled⟩, once.cons ?_, ?_, ?_⟩
    · exact fun _ _ f gives => (other f gives).elim
    · exact List.forall_mem_cons.2 ⟨fun f gives => (other f gives).elim, given⟩
    · exact fun f absent => others f fun m' listed => absent m' (List.mem_cons_of_mem _ listed)

theorem overwrites_field (gives : Gives f m) :
    Overwrites o (m :: ms) o' ↔
      ∃ o₁, o.assign? f m.2 = some o₁ ∧ Overwrites o₁ ms o' ∧ ∀ m' ∈ ms, ¬ Gives f m' := by
  constructor
  · rintro ⟨spelled, once, given, others⟩
    have fits := given m List.mem_cons_self f gives
    have alone : ∀ m' ∈ ms, ¬ Gives f m' := fun m' listed =>
      List.rel_of_pairwise_cons once listed f gives
    refine ⟨_, assign?_eq_some_iff.2 ⟨_, fits, rfl⟩,
      ⟨fun m' listed => spelled m' (List.mem_cons_of_mem _ listed), once.of_cons,
        fun m' listed => given m' (List.mem_cons_of_mem _ listed), fun g absent => ?_⟩, alone⟩
    rw [get_set fits.1]
    split
    next same => rw [same]
    next different =>
      refine others g (List.forall_mem_cons.2 ⟨fun gives' => ?_, absent⟩)
      exact different (gives'.unique gives)
  · rintro ⟨o₁, assigned, ⟨spelled, once, given, others⟩, alone⟩
    obtain ⟨n, fits, rfl⟩ := assign?_eq_some_iff.1 assigned
    have kept : o'.get f = n := by rw [others f alone, get_set fits.1, if_pos rfl]
    refine ⟨List.forall_mem_cons.2 ⟨⟨_, gives⟩, spelled⟩, once.cons fun m' listed g gives' => ?_,
      List.forall_mem_cons.2 ⟨fun g gives' => ?_, given⟩, fun g absent => ?_⟩
    · rw [gives'.unique gives]
      exact alone m' listed
    · rw [gives'.unique gives, kept]
      exact fits
    · have different : g ≠ f := by
        rintro rfl
        exact absent m List.mem_cons_self gives
      rw [others g fun m' listed => absent m' (List.mem_cons_of_mem _ listed), get_set fits.1,
        if_neg different]

theorem ofMembers?_eq_some_iff (bodies : ∀ m ∈ ms, Body m.1) {seen : List Field} :
    ofMembers? o seen ms = some o' ↔
      Overwrites o ms o' ∧ ∀ f ∈ seen, ∀ m ∈ ms, ¬ Gives f m := by
  induction ms generalizing o seen with
  | nil =>
    rw [ofMembers?, Option.some.injEq, overwrites_nil]
    exact (and_iff_left fun _ _ => nofun).symm
  | cons m ms ih =>
    obtain ⟨written, d⟩ := m
    have body := bodies (written, d) List.mem_cons_self
    have ih {o : ContextOptions} {seen : List Field} :=
      @ih o (fun m listed => bodies m (List.mem_cons_of_mem _ listed)) seen
    rw [ofMembers?]
    split
    next unspelled =>
      -- A name that spells no text is refused, whatever else there is.
      refine iff_of_false nofun fun both => ?_
      obtain ⟨name, spells⟩ := both.1.spelled _ List.mem_cons_self
      rw [unescape?_of_spells spells] at unspelled
      cases unspelled
    next name spelled =>
      have spells := spells_of_unescape? body spelled
      split
      next unknown =>
        have other (f : Field) : ¬ Gives f (written, d) := by
          intro gives
          rw [unescape?_of_spells gives, Option.some.injEq] at spelled
          rw [← spelled, Field.ofName?_name] at unknown
          cases unknown
        rw [ih, overwrites_other spells other]
        simp [other]
      next f known =>
        obtain rfl := Field.ofName?_eq_some_iff.1 known
        have gives : Gives f (written, d) := spells
        split
        next repeated =>
          refine iff_of_false nofun fun both => ?_
          exact both.2 f repeated _ List.mem_cons_self gives
        next fresh =>
          have unseen : (∀ g ∈ seen, ∀ m' ∈ (written, d) :: ms, ¬ Gives g m') ↔
              ∀ g ∈ seen, ∀ m' ∈ ms, ¬ Gives g m' := by
            refine forall₂_congr fun g before => ?_
            rw [List.forall_mem_cons]
            refine and_iff_right fun gives' => fresh ?_
            rwa [← gives'.unique gives]
          rw [overwrites_field gives, unseen]
          split
          next o₁ assigned =>
            rw [ih, List.forall_mem_cons, assigned]
            simp only [Option.some.injEq, exists_eq_left', and_assoc]
          next refused =>
            simp [refused]

theorem ofDocument?_eq_some_iff (bodies : ∀ m ∈ ms, Body m.1) :
    ofDocument? (.object ms) = some o ↔ Overwrites {} ms o := by
  rw [ofDocument?, ofMembers?_eq_some_iff bodies]
  exact and_iff_left nofun

theorem parse_eq_ok_iff (written : Document.Text (.object ms) text.toList) :
    parse text = .ok o ↔ Overwrites {} ms o := by
  rw [← ofDocument?_eq_some_iff written.bodies, parse, parse?_eq_some_iff.2 written,
    Option.bind_some]
  split
  next found => rw [found, Except.ok.injEq, Option.some.injEq]
  next refused => simp [refused]

theorem parse_cases (text : String) :
    (∃ o, parse text = .ok o) ∨ parse text = .error .config := by
  unfold parse
  split
  next o _ => exact .inl ⟨o, rfl⟩
  next => exact .inr rfl

theorem exists_overwrites (o : ContextOptions) (spelled : ∀ m ∈ ms, ∃ name, Spells m.1 name)
    (once : Once ms) (fit : ∀ m ∈ ms, ∀ f, Gives f m → ∃ n, Fits f n m.2) :
    ∃ o', Overwrites o ms o' := by
  induction ms generalizing o with
  | nil => exact ⟨o, overwrites_nil.2 rfl⟩
  | cons m ms ih =>
    obtain ⟨⟨name, spells⟩, spelled⟩ := List.forall_mem_cons.1 spelled
    obtain ⟨fit, fits⟩ := List.forall_mem_cons.1 fit
    by_cases known : ∃ f, Gives f m
    · obtain ⟨f, gives⟩ := known
      obtain ⟨n, fits'⟩ := fit f gives
      obtain ⟨o', rest⟩ := ih (o.set f n) spelled once.of_cons fits
      refine ⟨o', (overwrites_field gives).2 ⟨_, assign?_eq_some_iff.2 ⟨n, fits', rfl⟩, rest, ?_⟩⟩
      exact fun m' listed => List.rel_of_pairwise_cons once listed f gives
    · rw [not_exists] at known
      obtain ⟨o', rest⟩ := ih o spelled once.of_cons fits
      exact ⟨o', (overwrites_other spells known).2 rest⟩

/-! The written form. -/

def member (o : ContextOptions) (f : Field) : List Char × Document :=
  (f.name.toList, .number (Nat.toDigits 10 (o.get f)))

theorem gives_member (o : ContextOptions) (f : Field) : Gives f (o.member f) := by
  have plain : f.name.toList.all fun c => !isControl c && c != '"' && c != '\\' := by
    cases f <;> rfl
  refine spells_self fun c listed => ?_
  simpa [and_assoc] using List.all_eq_true.1 plain c listed

theorem writes_members (o : ContextOptions) {fs : List Field} (some : fs ≠ []) :
    Writes (.members (fs.map o.member)) ([','].intercalate (fs.map fun f =>
      '"' :: (f.name.toList ++ '"' :: ':' :: Nat.toDigits 10 (o.get f)))) := by
  have blank : Blank [] := nofun
  have number (f : Field) := Writes.number (numeral_toDigits (o.get f))
  induction fs with
  | nil => contradiction
  | cons f fs ih =>
    have body := (gives_member o f).body
    cases fs with
    | nil =>
      have alone := Writes.member blank body blank blank (number f) blank
      simpa [member, List.intercalate_singleton] using alone
    | cons g fs =>
      have first := Writes.nextMember blank body blank blank (number f) blank (ih nofun)
      simpa [member, List.intercalate_cons_cons] using first

theorem text_render (o : ContextOptions) :
    Document.Text (.object (Field.all.map o.member)) (render o).toList := by
  have blank : Blank [] := nofun
  have all : Field.all ≠ [] := nofun
  have whole := Document.Text.mk blank (.object (o.writes_members all)) blank
  simpa [render, String.toList_intercalate, Function.comp_def] using whole

theorem gives_member_iff : Gives g (o.member f) ↔ g = f := by
  constructor
  · exact fun gives => gives.unique (gives_member o f)
  · rintro rfl
    exact gives_member o g

theorem parse_render (o : ContextOptions) : parse (render o) = .ok o := by
  rw [parse_eq_ok_iff o.text_render]
  refine ⟨?_, ?_, ?_, fun f absent => ?_⟩
  · exact List.forall_mem_map.2 fun f _ => ⟨_, gives_member o f⟩
  · have nodup : Field.all.Nodup := by decide
    refine List.pairwise_map.2 (nodup.imp fun different g gives gives' => different ?_)
    rw [← gives_member_iff.1 gives, gives_member_iff.1 gives']
  · refine List.forall_mem_map.2 fun f _ g gives => ?_
    rw [gives_member_iff.1 gives]
    exact ⟨o.get_lt_limit f, rfl⟩
  · have listed : f ∈ Field.all := by cases f <;> decide
    exact (absent _ (List.mem_map_of_mem listed) (gives_member o f)).elim

/-- Options and texts. The written form of any options is read back. An object whose member
names are texts, that gives no field twice and nothing but plain integers in range, is read
as the defaults overwritten by what it gives. One that gives a field twice, or anything else
under its name, or has a name that is no text because half of a character stands in it alone,
is refused. -/
theorem options_survive :
    (∀ o, parse (render o) = .ok o) ∧
    ∀ text ms, Document.Text (.object ms) text.toList →
      ((∀ m ∈ ms, ∃ name, Spells m.1 name) → Once ms →
        (∀ m ∈ ms, ∀ f, Gives f m → ∃ n, Fits f n m.2) →
        ∃ o, parse text = .ok o ∧ (∀ m ∈ ms, ∀ f, Gives f m → Fits f (o.get f) m.2) ∧
          ∀ f, (∀ m ∈ ms, ¬ Gives f m) → o.get f = ({} : ContextOptions).get f) ∧
      (¬ Once ms → parse text = .error .config) ∧
      (∀ m ∈ ms, ∀ f, Gives f m → (∀ n, ¬ Fits f n m.2) → parse text = .error .config) ∧
      ∀ m ∈ ms, (∀ name, ¬ Spells m.1 name) → parse text = .error .config := by
  refine ⟨parse_render, fun text ms written => ⟨fun spelled once fit => ?_, fun twice => ?_,
    fun m listed f gives unfit => ?_, fun m listed unspelled => ?_⟩⟩
  · obtain ⟨o, overwrites⟩ := exists_overwrites {} spelled once fit
    exact ⟨o, (parse_eq_ok_iff written).2 overwrites, overwrites.given, overwrites.others⟩
  · refine (parse_cases text).resolve_left fun ⟨o, ok⟩ => ?_
    exact twice ((parse_eq_ok_iff written).1 ok).once
  · refine (parse_cases text).resolve_left fun ⟨o, ok⟩ => ?_
    exact unfit _ (((parse_eq_ok_iff written).1 ok).given m listed f gives)
  · refine (parse_cases text).resolve_left fun ⟨o, ok⟩ => ?_
    obtain ⟨name, spells⟩ := ((parse_eq_ok_iff written).1 ok).spelled m listed
    exact unspelled name spells

def crowded : String :=
  "\x7b \"x\" : [1.5e+3, \x7b\"a\": \"\\udc00\"\x7d], \"gcThr\\u0065shold\":64,\"x\":null,\n" ++
    "\"maxDispatchDepth\": 4294967295\x7d "

def crowdedMembers : List (List Char × Document) :=
  [("x".toList, .array [.number "1.5e+3".toList, .object [("a".toList, .string "\\udc00".toList)]]),
    ("gcThr\\u0065shold".toList, .number "64".toList), ("x".toList, .null),
    ("maxDispatchDepth".toList, .number "4294967295".toList)]

theorem text_crowded : Document.Text (.object crowdedMembers) crowded.toList := by
  have empty : Blank [] := nofun
  have space : Blank [' '] := List.all_eq_true.1 rfl
  have line : Blank ['\n'] := List.all_eq_true.1 rfl
  have body (s : List Char) (scanned : scanString (s ++ ['"']) = some (s, [])) : Body s :=
    body_of_quoted scanned
  have number (w : List Char) (numeral : isNumber w = true) : Writes (.document (.number w)) w :=
    .number (isNumber_iff.1 numeral)
  have half := Writes.string (body "\\udc00".toList (by decide))
  have inner := Writes.object (.member empty (body ['a'] (by decide)) empty space half empty)
  have items := Writes.nextItem empty (number "1.5e+3".toList (by decide)) empty
    (.item space inner empty)
  have depth := Writes.member line (body "maxDispatchDepth".toList (by decide)) empty space
    (number "4294967295".toList (by decide)) empty
  have second := Writes.nextMember empty (body ['x'] (by decide)) empty empty .null empty depth
  have threshold := Writes.nextMember space (body "gcThr\\u0065shold".toList (by decide)) empty
    empty (number "64".toList (by decide)) empty second
  have first := Writes.nextMember space (body ['x'] (by decide)) space space (.array items) empty
    threshold
  refine (?_ : _ = crowded.toList) ▸ Document.Text.mk empty (.object first) space
  decide

theorem crowded_survives :
    Document.Text (.object crowdedMembers) crowded.toList ∧
      (∀ m ∈ crowdedMembers, ∃ name, Spells m.1 name) ∧ Once crowdedMembers ∧
      (∀ m ∈ crowdedMembers, ∀ f, Gives f m → ∃ n, Fits f n m.2) ∧
      parse crowded = .ok { maxDispatchDepth := 4294967295, gcThreshold := 64 } := by
  have written := text_crowded
  -- What the members give is computed.
  have overwrites : Overwrites {} crowdedMembers
      { maxDispatchDepth := 4294967295, gcThreshold := 64 } :=
    (ofDocument?_eq_some_iff written.bodies).1 (by decide +kernel)
  have fit : ∀ m ∈ crowdedMembers, ∀ f, Gives f m → ∃ n, Fits f n m.2 :=
    fun m listed f gives => ⟨_, overwrites.given m listed f gives⟩
  obtain ⟨o, ok, given, others⟩ := (options_survive.2 crowded crowdedMembers written).1
    overwrites.spelled overwrites.once fit
  have whole : Overwrites {} crowdedMembers o :=
    ⟨overwrites.spelled, overwrites.once, given, others⟩
  refine ⟨written, overwrites.spelled, overwrites.once, fit, ?_⟩
  rw [ok, whole.unique overwrites]

def halfNamed : String :=
  "\x7b\"\\udc00\":1\x7d"

theorem half_named_refused :
    ∃ m : List Char × Document, Document.Text (.object [m]) halfNamed.toList ∧
      (∀ f, ¬ Gives f m) ∧ m.2 = .number ['1'] ∧ parse halfNamed = .error .config := by
  have empty : Blank [] := nofun
  have body : Body "\\udc00".toList := body_of_quoted (by decide)
  have member := Writes.member empty body empty empty (.number (numeral_toDigits 1)) empty
  have unspelled : unescape? "\\udc00".toList = none := by decide
  refine ⟨("\\udc00".toList, .number ['1']), ?_, fun f gives => ?_, rfl, by decide +kernel⟩
  · refine (?_ : _ = halfNamed.toList) ▸ Document.Text.mk empty (.object member) empty
    decide
  · rw [unescape?_of_spells gives] at unspelled
    cases unspelled

end ContextOptions

end ProxyEngine
