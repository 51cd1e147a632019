import Mathlib.Data.List.Nodup
import ProxyEngine.Proofs.Atom

/-! Runs of calls on a table of texts. The texts that were interned, each counted where
it came first, tell every answer: a text has the number of texts before it. Looking up a
text and looking up an atom are then inverse to each other at every point of a run. -/

namespace ProxyEngine.AtomTable

inductive Command where
  | intern (s : String)
  | find (s : String)
  | get (a : Atom)

inductive Event where
  | interned (s : String) (a : Atom)
  | found (s : String) (place : Option Atom)
  | got (a : Atom) (text : Option String)
  deriving DecidableEq

def exec (t : AtomTable) : Command → Event × AtomTable
  | .intern s => (.interned s (t.intern s).1, (t.intern s).2)
  | .find s => (.found s (t.find? s), t)
  | .get a => (.got a (t.get? a), t)

def run (t : AtomTable) : List Command → List Event × AtomTable
  | [] => ([], t)
  | c :: cs =>
    let (e, t) := t.exec c
    let (es, t) := t.run cs
    (e :: es, t)

def Command.text? : Command → Option String
  | .intern s => some s
  | _ => none

def Event.atom? : Event → Option Atom
  | .interned _ a => some a
  | _ => none

/-- The texts that some calls intern, in the order of their first calls. -/
def interned (cs : List Command) : List String :=
  (cs.filterMap Command.text?).eraseDups

/-- What a call answers when these texts were interned before: an atom is a number of
texts, and a new text comes after all of them. -/
def Command.answer (known : List String) : Command → Event
  | .intern s => .interned s (.ofPosition (known.idxOf s))
  | .find s => .found s ((known.idxOf? s).map Atom.ofPosition)
  | .get a => .got a known[a.index.toNat]?

def Command.learn (known : List String) (c : Command) : List String :=
  match c.text? with
  | some s => if s ∈ known then known else known ++ [s]
  | none => known

variable {t : AtomTable} {a : Atom} {s : String} {c : Command} {cs : List Command}

theorem eraseDups_concat {α : Type} [DecidableEq α] (xs : List α) (x : α) :
    (xs ++ [x]).eraseDups = if x ∈ xs then xs.eraseDups else xs.eraseDups ++ [x] := by
  rw [List.eraseDups_append, List.removeAll]
  by_cases old : x ∈ xs <;> simp [old, List.eraseDups_cons]

theorem interned_concat (cs : List Command) (c : Command) :
    interned (cs ++ [c]) = c.learn (interned cs) := by
  rw [interned, List.filterMap_append, Command.learn]
  cases new : c.text? with
  | some s => simp [new, eraseDups_concat, interned, List.mem_eraseDups]
  | none => simp [new, interned]

theorem prefix_interned (cs later : List Command) : interned cs <+: interned (cs ++ later) := by
  rw [interned, interned, List.filterMap_append, List.eraseDups_append]
  exact List.prefix_append _ _

theorem interned_nodup (cs : List Command) : (interned cs).Nodup := by
  induction cs using List.reverseRecOn with
  | nil => exact List.nodup_nil
  | append_singleton cs c ih =>
    rw [interned_concat, Command.learn]
    split
    next s _ =>
      split
      next => exact ih
      next fresh => exact List.nodup_append.2 ⟨ih, List.nodup_singleton s, by grind⟩
    next => exact ih

theorem intern_fst (t : AtomTable) (s : String) :
    (t.intern s).1 = .ofPosition (t.texts.idxOf s) := by
  rw [List.idxOf_eq_getD_idxOf?]
  cases found : t.find? s with
  | some a =>
    rw [intern_of_find? found]
    rw [find?_eq] at found
    obtain ⟨i, place, rfl⟩ := Option.map_eq_some_iff.1 found
    rw [place, Option.getD_some]
  | none =>
    rw [intern_of_find?_eq_none found]
    rw [find?_eq, Option.map_eq_none_iff] at found
    rw [found, Option.getD_none, size]

theorem exec_fst (t : AtomTable) (c : Command) : (t.exec c).1 = c.answer t.texts := by
  cases c with
  | intern s => exact congrArg (Event.interned s) (t.intern_fst s)
  | find s => exact congrArg (Event.found s) (t.find?_eq s)
  | get a => rfl

theorem texts_exec (t : AtomTable) (c : Command) : (t.exec c).2.texts = c.learn t.texts := by
  cases c with
  | intern s =>
    show (t.intern s).2.texts = if s ∈ t.texts then t.texts else t.texts ++ [s]
    cases found : t.find? s with
    | some a =>
      have known : s ∈ t.texts := by
        by_contra fresh
        rw [find?_eq_none_iff.2 fresh] at found
        cases found
      rw [intern_of_find? found, if_pos known]
    | none => rw [intern_of_find?_eq_none found, if_neg (find?_eq_none_iff.1 found), push]
  | find s => rfl
  | get a => rfl

theorem run_append (t : AtomTable) (cs later : List Command) :
    t.run (cs ++ later) =
      ((t.run cs).1 ++ ((t.run cs).2.run later).1, ((t.run cs).2.run later).2) := by
  induction cs generalizing t with
  | nil => rfl
  | cons c cs ih => simp only [List.cons_append, run, ih]

theorem run_concat (t : AtomTable) (cs : List Command) (c : Command) :
    t.run (cs ++ [c]) =
      ((t.run cs).1 ++ [((t.run cs).2.exec c).1], ((t.run cs).2.exec c).2) :=
  t.run_append cs [c]

theorem texts_run (cs : List Command) : (run {} cs).2.texts = interned cs := by
  induction cs using List.reverseRecOn with
  | nil => rfl
  | append_singleton cs c ih => rw [run_concat, texts_exec, ih, interned_concat]

theorem size_run (cs : List Command) : (run {} cs).2.size = (interned cs).length := by
  rw [size, texts_run]

theorem length_run (t : AtomTable) (cs : List Command) : (t.run cs).1.length = cs.length := by
  induction cs generalizing t with
  | nil => rfl
  | cons c cs ih => simp only [run, List.length_cons, ih]

theorem run_answer (before after : List Command) (c : Command) :
    (run {} (before ++ c :: after)).1[before.length]? = some (c.answer (interned before)) := by
  rw [run_append, ← length_run {} before, List.getElem?_append_right (Nat.le_refl _),
    Nat.sub_self, run, List.getElem?_cons_zero, exec_fst, texts_run]

theorem find?_of_get? (nodup : t.texts.Nodup) (read : t.get? a = some s) :
    t.find? s = some a := by
  obtain ⟨inside, text⟩ := List.getElem?_eq_some_iff.1 read
  have place : t.texts.idxOf? s = some a.index.toNat := by
    refine List.idxOf?_eq_some_iff.2 ⟨inside, text, fun j before same => ?_⟩
    have earlier : j < t.texts.length := Nat.lt_trans before inside
    have twice := (nodup.getElem_inj_iff (i := j) (j := a.index.toNat)).1 (same.trans text.symm)
    exact absurd twice (Nat.ne_of_lt before)
  rw [find?_eq, place, Option.map_some, ofPosition_toNat]

theorem atoms_answer {known : List String} {atoms : List Atom}
    (counted : atoms.eraseDups = (List.range known.length).map Atom.ofPosition)
    (numbered : (c.learn known).length ≤ 0x100000000) :
    (atoms ++ [c.answer known].filterMap Event.atom?).eraseDups =
      (List.range (c.learn known).length).map Atom.ofPosition := by
  have handed (a : Atom) : a ∈ atoms ↔ ∃ i < known.length, .ofPosition i = a := by
    rw [← List.mem_eraseDups, counted]
    simp
  cases c with
  | intern s =>
    show (atoms ++ [Atom.ofPosition (known.idxOf s)]).eraseDups = _
    rw [eraseDups_concat, counted]
    by_cases old : s ∈ known
    · have learnt : Command.learn known (.intern s) = known := if_pos old
      rw [if_pos ((handed _).2 ⟨_, List.idxOf_lt_length_of_mem old, rfl⟩), learnt]
    · have learnt : Command.learn known (.intern s) = known ++ [s] := if_neg old
      rw [learnt, List.length_append, List.length_singleton] at numbered
      have fresh : Atom.ofPosition known.length ∉ atoms := by
        rw [handed]
        rintro ⟨i, earlier, same⟩
        have equal := ofPosition_inj (by omega) (by omega) same
        omega
      rw [List.idxOf_eq_length old, if_neg fresh, learnt, List.length_append,
        List.length_singleton, List.range_succ, List.map_append, List.map_singleton]
  | find s =>
    show (atoms ++ []).eraseDups = _
    rw [List.append_nil]
    exact counted
  | get a =>
    show (atoms ++ []).eraseDups = _
    rw [List.append_nil]
    exact counted

theorem atoms_run (numbered : (interned cs).length ≤ 0x100000000) :
    ((run {} cs).1.filterMap Event.atom?).eraseDups =
      (List.range (interned cs).length).map Atom.ofPosition := by
  induction cs using List.reverseRecOn with
  | nil => rfl
  | append_singleton cs c ih =>
    have counted := ih ((prefix_interned cs [c]).length_le.trans numbered)
    rw [run_concat, exec_fst, texts_run, List.filterMap_append]
    rw [interned_concat] at numbered ⊢
    exact atoms_answer counted numbered

theorem get?_run_iff (numbered : (interned cs).length ≤ 0x100000000) :
    (run {} cs).2.get? a = some s ↔ (run {} cs).2.find? s = some a := by
  have nodup := interned_nodup cs
  rw [← size_run] at numbered
  rw [← texts_run] at nodup
  exact ⟨find?_of_get? nodup, get?_of_find? numbered⟩

theorem get?_push (new : t.find? s = none) (room : t.size < 0x100000000) (b : Atom) :
    (t.push s new).get? b = if b = .ofPosition t.size then some s else t.get? b := by
  rw [get?, push, get?]
  by_cases last : b = .ofPosition t.size
  · rw [if_pos last, last, toNat_ofPosition room]
    simp [size]
  · rw [if_neg last]
    have elsewhere : b.index.toNat ≠ t.texts.length := by
      intro same
      rw [← ofPosition_toNat b, same] at last
      exact last rfl
    rw [List.getElem?_append]
    split
    · rfl
    · rw [List.getElem?_eq_none (by rw [List.length_singleton]; omega),
        List.getElem?_eq_none (by omega)]

/-- Runs on a fresh table, as long as there is an atom for every text. Each call is answered
by the texts interned before it, the atoms handed out are the numbers of the texts from zero
on, and looking up a text and looking up an atom are inverse to each other, now and later.
Interning a known text answers its atom and changes nothing. Interning a new one adds
it at the end, and no answer changes but those about this text and its atom. -/
theorem numbering_mirrored {es : List Event} (ran : run {} cs = (es, t))
    (numbered : (interned cs).length ≤ 0x100000000) :
    es.length = cs.length ∧
    (∀ before c after, cs = before ++ c :: after →
      es[before.length]? = some (c.answer (interned before))) ∧
    (es.filterMap Event.atom?).eraseDups.map (·.index.toNat) = List.range t.size ∧
    t.texts = interned cs ∧
    (∀ a s, t.get? a = some s ↔ t.find? s = some a) ∧
    (∀ later es' t', t.run later = (es', t') → (interned (cs ++ later)).length ≤ 0x100000000 →
      ∀ a s, t.find? s = some a → t'.find? s = some a ∧ t'.get? a = some s) ∧
    (∀ s a, t.find? s = some a → t.intern s = (a, t)) ∧
    ∀ s, t.find? s = none → t.size < 0x100000000 →
      ∃ a t', t.intern s = (a, t') ∧ a.index.toNat = t.size ∧ t'.texts = t.texts ++ [s] ∧
        (∀ r, t'.find? r = if r = s then some a else t.find? r) ∧
        t.get? a = none ∧ ∀ b, t'.get? b = if b = a then some s else t.get? b := by
  obtain rfl : (run {} cs).1 = es := congrArg Prod.fst ran
  obtain rfl : (run {} cs).2 = t := congrArg Prod.snd ran
  refine ⟨length_run {} cs, ?_, ?_, texts_run cs, fun a s => get?_run_iff numbered, ?_,
    fun s a found => intern_of_find? found, fun s new room => ?_⟩
  · rintro before c after rfl
    exact run_answer before after c
  · rw [atoms_run numbered, List.map_map, size_run]
    conv_rhs => rw [← List.map_id (List.range _)]
    refine List.map_congr_left fun i inside => ?_
    exact toNat_ofPosition (by rw [List.mem_range] at inside; omega)
  · intro later es' t' ran' numbered' a s found
    have whole : (run {} (cs ++ later)).2 = t' := by rw [run_append, ran']
    have kept : (run {} (cs ++ later)).2.find? s = some a := by
      refine find?_of_prefix ?_ found
      rw [texts_run, texts_run]
      exact prefix_interned cs later
    rw [← whole]
    exact ⟨kept, (get?_run_iff numbered').2 kept⟩
  · refine ⟨_, _, intern_of_find?_eq_none new, toNat_ofPosition room, rfl, find?_push new, ?_,
      get?_push new room⟩
    rw [get?, toNat_ofPosition room]
    exact List.getElem?_eq_none (Nat.le_refl _)

def lengthAndName : List Command :=
  [.intern "length", .find "name", .intern "length", .intern "name", .get ⟨1⟩]

theorem length_name_mirrored :
    ∃ es t, run {} lengthAndName = (es, t) ∧
      es = [.interned "length" ⟨0⟩, .found "name" none, .interned "length" ⟨0⟩,
        .interned "name" ⟨1⟩, .got ⟨1⟩ (some "name")] ∧
      t.find? "name" = some ⟨1⟩ ∧ (t.run [.intern "07"]).2.get? ⟨1⟩ = some "name" := by
  have numbered : (interned lengthAndName).length ≤ 0x100000000 := by decide
  have later : (interned (lengthAndName ++ [.intern "07"])).length ≤ 0x100000000 := by decide
  obtain ⟨-, -, -, -, mirrored, kept, -⟩ :=
    numbering_mirrored (show run {} lengthAndName = (_, _) from rfl) numbered
  have found := (mirrored ⟨1⟩ "name").1 rfl
  exact ⟨_, _, rfl, by decide, found, (kept _ _ _ rfl later _ _ found).2⟩

end ProxyEngine.AtomTable
