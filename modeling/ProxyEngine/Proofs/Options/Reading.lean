import ProxyEngine.Proofs.Options.Grammar

/-! Reading follows the grammar. What the grammar writes is read back whatever comes after
it, with a budget that the length of the text pays for, and only what the grammar writes
is read. So a text writes at most one document, and whether it does can be computed. -/

namespace ProxyEngine.Document

variable {n : Nat} {c : Char} {cs s t b rest : List Char} {d : Document}
variable {ds : List Document} {ms : List (List Char × Document)}

/-! One step of the reader. -/

theorem read_blank (blank : Blank b) : read n (b ++ cs) = read n cs := by
  cases n with
  | zero => rfl
  | succ n => rw [read, read, skipBlanks_append blank]

theorem read_string : read (n + 1) ('"' :: cs) = (scanString cs).map fun (s, t) => (string s, t) :=
  rfl

theorem read_array :
    read (n + 1) ('[' :: cs) =
      match skipBlanks cs with
      | ']' :: rest => some (array [], rest)
      | cs => (readItems n cs).map fun (ds, t) => (array ds, t) :=
  rfl

theorem read_object :
    read (n + 1) ('{' :: cs) =
      match skipBlanks cs with
      | '}' :: rest => some (object [], rest)
      | cs => (readMembers n cs).map fun (ms, t) => (object ms, t) :=
  rfl

theorem read_numeral {w : List Char} (numeral : Numeral w) (stops : Stops isNumberChar rest) :
    read (n + 1) (w ++ rest) = some (number w, rest) := by
  have all := numeral.characters
  have number := isNumber_iff.2 numeral
  cases w with
  | nil => cases number
  | cons c w =>
    have first := all c List.mem_cons_self
    have other {x : Char} (not : isNumberChar x = false) : c ≠ x := by
      rintro rfl
      rw [not] at first
      cases first
    have skip : skipBlanks (c :: w ++ rest) = c :: w ++ rest := by
      apply skipBlanks_cons
      simp [isBlank, other (x := ' ') rfl, other (x := '\n') rfl, other (x := '\t') rfl,
        other (x := '\r') rfl]
    rw [read, skip]
    split
    next same => cases same
    next same => exact (other (x := '"') rfl (List.cons.inj same).1).elim
    next same => exact (other (x := '[') rfl (List.cons.inj same).1).elim
    next same => exact (other (x := '{') rfl (List.cons.inj same).1).elim
    next same =>
      rw [← same]
      obtain ⟨rfl, rfl⟩ := List.cons.inj same
      simp only [beq_false_of_ne (other (x := 'n') rfl), beq_false_of_ne (other (x := 't') rfl),
        beq_false_of_ne (other (x := 'f') rfl), Bool.false_eq_true, if_false,
        takeWhile_run all stops, dropWhile_run all stops, number, if_true]

theorem readItems_blank (blank : Blank b) : readItems n (b ++ cs) = readItems n cs := by
  cases n with
  | zero => rfl
  | succ n => rw [readItems, readItems, read_blank blank]

theorem readMembers_blank (blank : Blank b) : readMembers n (b ++ cs) = readMembers n cs := by
  cases n with
  | zero => rfl
  | succ n => rw [readMembers, readMembers, skipBlanks_append blank]

theorem readItems_skipBlanks (n : Nat) (cs : List Char) :
    readItems n (skipBlanks cs) = readItems n cs := by
  obtain ⟨b, blank, parts⟩ := exists_blank cs
  rw [← readItems_blank blank, ← parts]

theorem readMembers_skipBlanks (n : Nat) (cs : List Char) :
    readMembers n (skipBlanks cs) = readMembers n cs := by
  obtain ⟨b, blank, parts⟩ := exists_blank cs
  rw [← readMembers_blank blank, ← parts]

theorem readItems_bracket (n : Nat) (cs : List Char) : readItems n (']' :: cs) = none := by
  cases n with
  | zero => rfl
  | succ n => cases n <;> rfl

theorem readMembers_brace (n : Nat) (cs : List Char) : readMembers n ('}' :: cs) = none := by
  cases n <;> rfl

theorem read_items (read : readItems n cs = some (ds, rest)) :
    Document.read (n + 1) ('[' :: cs) = some (array ds, rest) := by
  rw [← readItems_skipBlanks] at read
  rw [read_array]
  split
  next empty =>
    rw [empty, readItems_bracket] at read
    cases read
  next => rw [read, Option.map_some]

theorem read_members (read : readMembers n cs = some (ms, rest)) :
    Document.read (n + 1) ('{' :: cs) = some (object ms, rest) := by
  rw [← readMembers_skipBlanks] at read
  rw [read_object]
  split
  next empty =>
    rw [empty, readMembers_brace] at read
    cases read
  next => rw [read, Option.map_some]

theorem readItems_last (item : read n cs = some (d, b ++ ']' :: rest)) (blank : Blank b) :
    readItems (n + 1) cs = some ([d], rest) := by
  have bracket : skipBlanks (b ++ ']' :: rest) = ']' :: rest := skipBlanks_token blank rfl
  simp only [readItems, item, bracket]

theorem readItems_next {later : List Char} (item : read n cs = some (d, b ++ ',' :: later))
    (blank : Blank b) (items : readItems n later = some (ds, rest)) :
    readItems (n + 1) cs = some (d :: ds, rest) := by
  have comma : skipBlanks (b ++ ',' :: later) = ',' :: later := skipBlanks_token blank rfl
  simp only [readItems, item, comma, items, Option.map_some]

section Member

variable {b' b'' after later : List Char}

theorem readMembers_last (body : Body s) (blank : Blank b) (blank' : Blank b')
    (value : read n after = some (d, b'' ++ '}' :: rest)) (blank'' : Blank b'') :
    readMembers (n + 1) ('"' :: (s ++ '"' :: (b ++ ':' :: (b' ++ after)))) =
      some ([(s, d)], rest) := by
  have colon : skipBlanks (b ++ ':' :: (b' ++ after)) = ':' :: (b' ++ after) :=
    skipBlanks_token blank rfl
  have brace : skipBlanks (b'' ++ '}' :: rest) = '}' :: rest := skipBlanks_token blank'' rfl
  simp only [readMembers, skipBlanks_cons (c := '"') rfl, scanString_of_body body, colon,
    read_blank blank', value, brace]

theorem readMembers_next (body : Body s) (blank : Blank b) (blank' : Blank b')
    (value : read n after = some (d, b'' ++ ',' :: later)) (blank'' : Blank b'')
    (members : readMembers n later = some (ms, rest)) :
    readMembers (n + 1) ('"' :: (s ++ '"' :: (b ++ ':' :: (b' ++ after)))) =
      some ((s, d) :: ms, rest) := by
  have colon : skipBlanks (b ++ ':' :: (b' ++ after)) = ':' :: (b' ++ after) :=
    skipBlanks_token blank rfl
  have comma : skipBlanks (b'' ++ ',' :: later) = ',' :: later := skipBlanks_token blank'' rfl
  simp only [readMembers, skipBlanks_cons (c := '"') rfl, scanString_of_body body, colon,
    read_blank blank', value, comma, members, Option.map_some]

end Member

/-! What is written is read. -/

theorem stops_blank (blank : Blank b) (stops : Stops isNumberChar rest) :
    Stops isNumberChar (b ++ rest) := by
  cases b with
  | nil => exact stops
  | cons c b =>
    have first := blank c List.mem_cons_self
    apply stops_cons
    simp only [isBlank, Bool.or_eq_true, beq_iff_eq] at first
    obtain ((rfl | rfl) | rfl) | rfl := first <;> rfl

/-- The phrase is read back from its text, given a budget of twice the length. -/
def Reads : Phrase → List Char → Prop
  | .document d, t => ∀ n rest, 2 * t.length ≤ n → Stops isNumberChar rest →
      read n (t ++ rest) = some (d, rest)
  | .items ds, t => ∀ n rest, 2 * t.length < n → readItems n (t ++ ']' :: rest) = some (ds, rest)
  | .members ms, t => ∀ n rest, 2 * t.length < n →
      readMembers n (t ++ '}' :: rest) = some (ms, rest)

theorem reads_document (nonempty : t ≠ [])
    (step : ∀ n rest, 2 * t.length ≤ n + 1 → Stops isNumberChar rest →
      read (n + 1) (t ++ rest) = some (d, rest)) : Reads (.document d) t := by
  intro n rest budget stops
  have pos := List.length_pos_iff.2 nonempty
  obtain ⟨n, rfl⟩ := Nat.exists_eq_add_one_of_ne_zero (show n ≠ 0 by omega)
  exact step n rest budget stops

theorem Writes.reads {p : Phrase} (writes : Writes p t) : Reads p t := by
  induction writes with
  | null => exact reads_document nofun fun n rest _ _ => rfl
  | yes => exact reads_document nofun fun n rest _ _ => rfl
  | no => exact reads_document nofun fun n rest _ _ => rfl
  | number numeral =>
    refine reads_document ?_ fun n rest _ stops => read_numeral numeral stops
    rintro rfl
    cases isNumber_iff.2 numeral
  | string body =>
    refine reads_document nofun fun n rest _ _ => ?_
    simp only [List.cons_append, List.append_assoc, List.nil_append, read_string,
      scanString_of_body body, Option.map_some]
  | noItems blank =>
    refine reads_document nofun fun n rest _ _ => ?_
    simp only [List.cons_append, List.append_assoc, read_array, skipBlanks_append blank]
    rfl
  | array _ ih =>
    refine reads_document nofun fun n rest budget _ => ?_
    simp only [List.length_cons, List.length_append, List.length_nil] at budget
    simp only [List.cons_append, List.append_assoc, List.nil_append]
    exact read_items (ih n rest (by omega))
  | noMembers blank =>
    refine reads_document nofun fun n rest _ _ => ?_
    simp only [List.cons_append, List.append_assoc, read_object, skipBlanks_append blank]
    rfl
  | object _ ih =>
    refine reads_document nofun fun n rest budget _ => ?_
    simp only [List.length_cons, List.length_append, List.length_nil] at budget
    simp only [List.cons_append, List.append_assoc, List.nil_append]
    exact read_members (ih n rest (by omega))
  | item blank _ blank' ih =>
    intro n rest budget
    simp only [List.length_append] at budget
    obtain ⟨n, rfl⟩ := Nat.exists_eq_add_one_of_ne_zero (Nat.ne_zero_of_lt budget)
    simp only [List.append_assoc, readItems_blank blank]
    exact readItems_last (ih n _ (by omega) (stops_blank blank' (stops_cons rfl))) blank'
  | nextItem blank _ blank' _ ih later =>
    intro n rest budget
    simp only [List.length_append, List.length_cons] at budget
    obtain ⟨n, rfl⟩ := Nat.exists_eq_add_one_of_ne_zero (Nat.ne_zero_of_lt budget)
    simp only [List.append_assoc, List.cons_append, readItems_blank blank]
    exact readItems_next (ih n _ (by omega) (stops_blank blank' (stops_cons rfl))) blank'
      (later n rest (by omega))
  | member blank body blank₁ blank₂ _ blank₃ ih =>
    intro n rest budget
    simp only [List.length_append, List.length_cons] at budget
    obtain ⟨n, rfl⟩ := Nat.exists_eq_add_one_of_ne_zero (Nat.ne_zero_of_lt budget)
    simp only [List.append_assoc, List.cons_append, readMembers_blank blank]
    exact readMembers_last body blank₁ blank₂
      (ih n _ (by omega) (stops_blank blank₃ (stops_cons rfl))) blank₃
  | nextMember blank body blank₁ blank₂ _ blank₃ _ ih later =>
    intro n rest budget
    simp only [List.length_append, List.length_cons] at budget
    obtain ⟨n, rfl⟩ := Nat.exists_eq_add_one_of_ne_zero (Nat.ne_zero_of_lt budget)
    simp only [List.append_assoc, List.cons_append, readMembers_blank blank]
    exact readMembers_next body blank₁ blank₂
      (ih n _ (by omega) (stops_blank blank₃ (stops_cons rfl))) blank₃ (later n rest (by omega))

theorem parse?_of_text (text : Text d t) : parse? t = some d := by
  obtain @⟨b, t, b', blank, writes, blank'⟩ := text
  have whole := writes.reads (2 * (b ++ (t ++ b')).length + 1) b'
    (by simp only [List.length_append]; omega)
    (by simpa using stops_blank blank' (stops_nil isNumberChar))
  have ended : skipBlanks b' = [] := List.dropWhile_eq_nil_iff.2 blank'
  rw [parse?, read_blank blank, whole]
  simp only [ended, List.isEmpty_nil, if_true]

/-! Only what is written is read. -/

theorem Writes.blank_items {b : List Char} (blank : Blank b) (writes : Writes (.items ds) t) :
    Writes (.items ds) (b ++ t) := by
  cases writes with
  | item blank' first last =>
    rw [← List.append_assoc]
    exact .item (List.forall_mem_append.2 ⟨blank, blank'⟩) first last
  | nextItem blank' first last later =>
    rw [← List.append_assoc]
    exact .nextItem (List.forall_mem_append.2 ⟨blank, blank'⟩) first last later

theorem Writes.blank_members {b : List Char} (blank : Blank b)
    (writes : Writes (.members ms) t) : Writes (.members ms) (b ++ t) := by
  cases writes with
  | member blank' body blank₁ blank₂ first last =>
    rw [← List.append_assoc]
    exact .member (List.forall_mem_append.2 ⟨blank, blank'⟩) body blank₁ blank₂ first last
  | nextMember blank' body blank₁ blank₂ first last later =>
    rw [← List.append_assoc]
    exact .nextMember (List.forall_mem_append.2 ⟨blank, blank'⟩) body blank₁ blank₂ first last
      later

/-- With this budget only what the grammar writes is read. -/
structure Faithful (n : Nat) : Prop where
  document : ∀ cs d rest, read n cs = some (d, rest) →
    ∃ b t, Blank b ∧ Writes (.document d) t ∧ cs = b ++ (t ++ rest)
  items : ∀ cs ds rest, readItems n cs = some (ds, rest) →
    ∃ t, Writes (.items ds) t ∧ cs = t ++ ']' :: rest
  members : ∀ cs ms rest, readMembers n cs = some (ms, rest) →
    ∃ t, Writes (.members ms) t ∧ cs = t ++ '}' :: rest

theorem word?_eq_some {w : List Char} {d d' : Document} (read : word? w d cs = some (d', rest)) :
    d' = d ∧ cs = w ++ rest := by
  unfold word? at read
  split at read
  next starts =>
    cases read
    exact ⟨rfl, (List.prefix_iff_eq_append.1 (List.isPrefixOf_iff_prefix.1 starts)).symm⟩
  next => cases read

theorem faithful_document (faithful : Faithful n) (found : read (n + 1) cs = some (d, rest)) :
    ∃ b t, Blank b ∧ Writes (.document d) t ∧ cs = b ++ (t ++ rest) := by
  obtain ⟨b, blank, parts⟩ := exists_blank cs
  suffices ∃ t, Writes (.document d) t ∧ skipBlanks cs = t ++ rest by
    obtain ⟨t, writes, same⟩ := this
    exact ⟨b, t, blank, writes, by rw [← same, ← parts]⟩
  rw [read] at found
  split at found
  next => cases found
  next same =>
    obtain ⟨⟨s, rest'⟩, scanned, ⟨⟩⟩ := Option.map_eq_some_iff.1 found
    obtain ⟨body, rfl⟩ := body_of_scanString scanned
    exact ⟨_, .string body, by simp [same]⟩
  next inside same =>
    obtain ⟨b', blank', inside_eq⟩ := exists_blank inside
    split at found
    next closed =>
      cases found
      exact ⟨_, .noItems blank', by simp [same, ← closed, ← inside_eq]⟩
    next =>
      obtain ⟨⟨ds, rest'⟩, items, ⟨⟩⟩ := Option.map_eq_some_iff.1 found
      obtain ⟨t, writes, rest_eq⟩ := faithful.items _ _ _ items
      rw [rest_eq] at inside_eq
      exact ⟨_, .array (writes.blank_items blank'), by simp [same, inside_eq]⟩
  next inside same =>
    obtain ⟨b', blank', inside_eq⟩ := exists_blank inside
    split at found
    next closed =>
      cases found
      exact ⟨_, .noMembers blank', by simp [same, ← closed, ← inside_eq]⟩
    next =>
      obtain ⟨⟨ms, rest'⟩, members, ⟨⟩⟩ := Option.map_eq_some_iff.1 found
      obtain ⟨t, writes, rest_eq⟩ := faithful.members _ _ _ members
      rw [rest_eq] at inside_eq
      exact ⟨_, .object (writes.blank_members blank'), by simp [same, inside_eq]⟩
  next same =>
    rw [same]
    split at found
    · obtain ⟨rfl, word⟩ := word?_eq_some found
      exact ⟨_, .null, word⟩
    · split at found
      · obtain ⟨rfl, word⟩ := word?_eq_some found
        exact ⟨_, .yes, word⟩
      · split at found
        · obtain ⟨rfl, word⟩ := word?_eq_some found
          exact ⟨_, .no, word⟩
        · dsimp only at found
          split at found
          next number =>
            cases found
            exact ⟨_, .number (isNumber_iff.1 number), List.takeWhile_append_dropWhile.symm⟩
          next => cases found

theorem faithful_items (faithful : Faithful n) (found : readItems (n + 1) cs = some (ds, rest)) :
    ∃ t, Writes (.items ds) t ∧ cs = t ++ ']' :: rest := by
  rw [readItems] at found
  split at found
  next => cases found
  next d after item =>
    obtain ⟨b, t, blank, writes, rfl⟩ := faithful.document _ _ _ item
    obtain ⟨b', blank', after_eq⟩ := exists_blank after
    split at found
    next same =>
      obtain ⟨⟨ds, rest'⟩, items, ⟨⟩⟩ := Option.map_eq_some_iff.1 found
      obtain ⟨ts, later, rfl⟩ := faithful.items _ _ _ items
      rw [same] at after_eq
      exact ⟨_, .nextItem blank writes blank' later, by simp [after_eq]⟩
    next same =>
      cases found
      rw [same] at after_eq
      exact ⟨_, .item blank writes blank', by simp [after_eq]⟩
    next => cases found

theorem faithful_members (faithful : Faithful n)
    (found : readMembers (n + 1) cs = some (ms, rest)) :
    ∃ t, Writes (.members ms) t ∧ cs = t ++ '}' :: rest := by
  obtain ⟨b, blank, parts⟩ := exists_blank cs
  rw [readMembers] at found
  split at found
  next quote =>
    rw [quote] at parts
    split at found
    next => cases found
    next s after_name scanned =>
      obtain ⟨body, rfl⟩ := body_of_scanString scanned
      obtain ⟨b₁, blank₁, name_eq⟩ := exists_blank after_name
      split at found
      next colon =>
        rw [colon] at name_eq
        split at found
        next => cases found
        next d after value =>
          obtain ⟨b₂, t, blank₂, writes, rfl⟩ := faithful.document _ _ _ value
          obtain ⟨b₃, blank₃, after_eq⟩ := exists_blank after
          split at found
          next same =>
            obtain ⟨⟨ms, rest'⟩, members, ⟨⟩⟩ := Option.map_eq_some_iff.1 found
            obtain ⟨ts, later, rfl⟩ := faithful.members _ _ _ members
            rw [same] at after_eq
            refine ⟨_, .nextMember blank body blank₁ blank₂ writes blank₃ later, ?_⟩
            simp [parts, name_eq, after_eq]
          next same =>
            cases found
            rw [same] at after_eq
            refine ⟨_, .member blank body blank₁ blank₂ writes blank₃, ?_⟩
            simp [parts, name_eq, after_eq]
          next => cases found
      next => cases found
  next => cases found

theorem faithful (n : Nat) : Faithful n := by
  induction n with
  | zero => exact ⟨nofun, nofun, nofun⟩
  | succ n ih =>
    exact ⟨fun _ _ _ => faithful_document ih, fun _ _ _ => faithful_items ih,
      fun _ _ _ => faithful_members ih⟩

theorem text_of_parse? (parsed : parse? t = some d) : Text d t := by
  unfold parse? at parsed
  split at parsed
  next found =>
    obtain ⟨b, t, blank, writes, rfl⟩ := (faithful _).document _ _ _ found
    split at parsed
    next ended =>
      cases parsed
      exact .mk blank writes (List.dropWhile_eq_nil_iff.1 (List.isEmpty_iff.1 ended))
    next => cases parsed
  next => cases parsed

/-- Reading finds the document that the grammar says is written, and nothing else. -/
theorem parse?_eq_some_iff : parse? t = some d ↔ Text d t :=
  ⟨text_of_parse?, parse?_of_text⟩

end ProxyEngine.Document
