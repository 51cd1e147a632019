import Mathlib.Data.List.Nodup
import ProxyEngine.Proofs.Heap.Validity

/-! The heap as a directory of names that are never used twice.
A directory remembers all names it handed out and what is stored under each of
them now; it knows no slots, generations or free lists. Whatever calls are made
on an empty heap, a directory that sees the same calls gives the same answers,
and at every point of the run both store the same objects. -/

namespace ProxyEngine.Heap

inductive Command where
  | alloc (x : Object)
  | free (o : ObjectId)
  | get (o : ObjectId)
  | update (o : ObjectId) (f : Object → Object)

inductive Event where
  | allocated (x : Object) (name : ObjectId)
  | freed (o : ObjectId) (found : Option Object)
  | got (o : ObjectId) (found : Option Object)
  | updated (o : ObjectId) (f : Object → Object) (found : Option Object)

def exec (h : Heap) : Command → Option (Event × Heap)
  | .alloc x => (h.alloc? x).map fun (o, h) => (.allocated x o, h)
  | .free o => some (.freed o (h.release o).1, (h.release o).2)
  | .get o => some (.got o (h.get? o), h)
  | .update o f => some (.updated o f (h.get? o), h.modify o f)

def run (h : Heap) : List Command → Option (List Event × Heap)
  | [] => some ([], h)
  | c :: cs =>
    (h.exec c).bind fun (e, h) => (h.run cs).map fun (es, h) => (e :: es, h)

structure Directory where
  /-- All names handed out so far, the latest first. -/
  names : List ObjectId := []
  stored : ObjectId → Option Object := fun _ => none

namespace Directory

def after (d : Directory) : Event → Directory
  | .allocated x o => ⟨o :: d.names, fun p => if p = o then some x else d.stored p⟩
  | .freed o _ => { d with stored := fun p => if p = o then none else d.stored p }
  | .got .. => d
  | .updated o f _ =>
    { d with stored := fun p => if p = o then (d.stored o).map f else d.stored p }

/-- The answer is what the directory stores, and an allocation answers a new name. -/
def Allows (d : Directory) : Event → Prop
  | .allocated _ o => o ∉ d.names
  | .freed o found => found = d.stored o
  | .got o found => found = d.stored o
  | .updated o _ found => found = d.stored o

def Accepts (d : Directory) : List Event → Prop
  | [] => True
  | e :: es => d.Allows e ∧ (d.after e).Accepts es

def replay (d : Directory) (es : List Event) : Directory :=
  es.foldl after d

end Directory

/-- The heap stores what the directory stores and issued the names it handed out. -/
structure Represents (h : Heap) (d : Directory) : Prop where
  valid : h.Valid
  stored : ∀ o, h.get? o = d.stored o
  issued : ∀ o, h.Issued o ↔ o ∈ d.names
  names_nodup : d.names.Nodup

theorem represents_empty : Represents {} {} where
  valid := valid_empty
  stored _ := rfl
  issued o := by simp [not_issued_empty]
  names_nodup := List.nodup_nil

variable {h h' : Heap} {d : Directory} {o : ObjectId} {x : Object}

theorem Represents.alloc (rep : h.Represents d) (stored : h.alloc? x = some (o, h')) :
    o ∉ d.names ∧ h'.Represents (d.after (.allocated x o)) := by
  have fresh : o ∉ d.names := fun named =>
    rep.valid.not_issued_alloc stored ((rep.issued o).2 named)
  refine ⟨fresh, rep.valid.alloc stored, fun p => ?_, fun p => ?_, ?_⟩
  · rw [rep.valid.get?_alloc stored, rep.stored]
    rfl
  · rw [rep.valid.issued_alloc stored, rep.issued]
    exact List.mem_cons.symm
  · exact List.nodup_cons.2 ⟨fresh, rep.names_nodup⟩

theorem Represents.release (rep : h.Represents d) (o : ObjectId) (found : Option Object) :
    (h.release o).2.Represents (d.after (.freed o found)) := by
  refine ⟨rep.valid.release o, fun p => ?_, fun p => ?_, rep.names_nodup⟩
  · rw [get?_release, rep.stored]
    rfl
  · rw [rep.valid.issued_release]
    exact rep.issued p

theorem Represents.modify (rep : h.Represents d) (o : ObjectId) (f : Object → Object)
    (found : Option Object) : (h.modify o f).Represents (d.after (.updated o f found)) := by
  refine ⟨rep.valid.modify o f, fun p => ?_, fun p => ?_, rep.names_nodup⟩
  · rw [get?_modify, rep.stored, rep.stored]
    rfl
  · rw [issued_modify]
    exact rep.issued p

inductive Answers (h : Heap) : Event → Heap → Prop
  | alloc {x : Object} {o : ObjectId} {h' : Heap} :
      h.alloc? x = some (o, h') → Answers h (.allocated x o) h'
  | free (o : ObjectId) : Answers h (.freed o (h.get? o)) (h.release o).2
  | get (o : ObjectId) : Answers h (.got o (h.get? o)) h
  | update (o : ObjectId) (f : Object → Object) :
      Answers h (.updated o f (h.get? o)) (h.modify o f)

theorem answers_of_exec {c : Command} {e : Event} (answered : h.exec c = some (e, h')) :
    h.Answers e h' := by
  cases c with
  | alloc x =>
    obtain ⟨⟨o, h₁⟩, stored, answer⟩ := Option.map_eq_some_iff.1 answered
    cases answer
    exact .alloc stored
  | free o =>
    cases answered
    rw [release_fst]
    exact .free o
  | get o =>
    cases answered
    exact .get o
  | update o f =>
    cases answered
    exact .update o f

theorem Represents.exec (rep : h.Represents d) {c : Command} {e : Event}
    (answered : h.exec c = some (e, h')) : d.Allows e ∧ h'.Represents (d.after e) := by
  cases answers_of_exec answered with
  | alloc stored => exact rep.alloc stored
  | free o => exact ⟨rep.stored o, rep.release o _⟩
  | get o => exact ⟨rep.stored o, rep⟩
  | update o f => exact ⟨rep.stored o, rep.modify o f _⟩

theorem run_cons_eq_some_iff {c : Command} {cs : List Command} {es : List Event} :
    h.run (c :: cs) = some (es, h') ↔
      ∃ e h₁ later, h.exec c = some (e, h₁) ∧ h₁.run cs = some (later, h') ∧ es = e :: later := by
  simp only [Heap.run, Option.bind_eq_some_iff, Option.map_eq_some_iff]
  constructor
  · rintro ⟨⟨e, h₁⟩, answered, ⟨later, h₂⟩, ran, ⟨⟩⟩
    exact ⟨e, h₁, later, answered, ran, rfl⟩
  · rintro ⟨e, h₁, later, answered, ran, rfl⟩
    exact ⟨(e, h₁), answered, (later, h'), ran, rfl⟩

theorem Represents.run (rep : h.Represents d) {cs : List Command} {es : List Event}
    (ran : h.run cs = some (es, h')) : d.Accepts es ∧ h'.Represents (d.replay es) := by
  induction cs generalizing h d es with
  | nil =>
    cases ran
    exact ⟨trivial, rep⟩
  | cons c cs ih =>
    obtain ⟨e, h₁, later, answered, rest, rfl⟩ := run_cons_eq_some_iff.1 ran
    obtain ⟨allowed, rep⟩ := rep.exec answered
    obtain ⟨accepted, rep⟩ := ih rep rest
    exact ⟨⟨allowed, accepted⟩, rep⟩

theorem exec_isSome (room : h.slotCount < maxSlots) (c : Command) : (h.exec c).isSome := by
  cases c with
  | alloc x => simpa [exec] using alloc?_isSome room x
  | _ => rfl

/-- Calls on an empty heap are answered as by a directory of names that are never
used twice, and the heap goes on answering as long as slots are left. -/
theorem run_refines_directory {cs : List Command} {es : List Event}
    (ran : Heap.run {} cs = some (es, h)) :
    Directory.Accepts {} es ∧
    (let d := Directory.replay {} es;
      (d.names.map ObjectId.raw).Nodup ∧
      (∀ o ∈ d.names, 0 < o.raw ∧ o.raw < 0x100000000 ∧ ObjectId.ofRaw? o.raw = some o) ∧
      (∀ o, h.get? o = d.stored o) ∧
      (∀ o, (d.stored o).isSome → o ∈ d.names) ∧
      (∀ o, (h.release o).1 = d.stored o) ∧
      (∀ o, d.stored o = none → h.release o = (none, h)) ∧
      h.live = h.ids.length ∧
      (∀ o, o ∈ h.ids ↔ (d.stored o).isSome) ∧
      h.ids.Pairwise (·.slot < ·.slot)) ∧
    (h.slotCount < maxSlots → ∀ c, (h.exec c).isSome) := by
  obtain ⟨accepted, rep⟩ := represents_empty.run ran
  refine ⟨accepted, ⟨?_, ?_, rep.stored, ?_, ?_, ?_, rep.valid.live_eq, ?_, h.ids_sorted⟩,
    exec_isSome⟩
  · exact List.Nodup.map (fun _ _ => ObjectId.raw_injective) rep.names_nodup
  · exact fun o _ => ⟨o.raw_pos, o.raw_lt, o.ofRaw?_raw⟩
  · intro o live
    obtain ⟨x, found⟩ := Option.isSome_iff_exists.1 live
    exact (rep.issued o).1 (rep.valid.issued_of_live ((rep.stored o).trans found))
  · exact fun o => (release_fst h o).trans (rep.stored o)
  · exact fun o dead => release_of_dead ((rep.stored o).trans dead)
  · intro o
    rw [mem_ids, isLive, rep.stored]

def reuse : List Command :=
  [.alloc {}, .free (.first .first), .alloc { extensible := false }, .free (.first .first)]

theorem reuse_refines_directory :
    ∃ es h, Heap.run {} reuse = some (es, h) ∧ Directory.Accepts {} es ∧
      h.get? (.first .first) = none ∧ h.live = 1 :=
  ⟨_, _, rfl, (run_refines_directory (show Heap.run {} reuse = some (_, _) from rfl)).1, rfl, rfl⟩

end ProxyEngine.Heap
