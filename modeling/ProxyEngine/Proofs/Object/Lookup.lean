import ProxyEngine.Proofs.Engine.Invariant
import ProxyEngine.Proofs.Object.Ancestry
import ProxyEngine.Proofs.Object.Lineage

/-! Lookups along stored prototypes. Asking for a property, reading it and assigning to
it climb the chain of prototypes in the same way: every ordinary object without the
property hands the lookup to its prototype. Since chains of ordinary objects end, so
does the climb, in every context that a run can bring about, even one in which the
prototypes of proxies form cycles. -/

namespace ProxyEngine

variable {σ α : Type} {s : Shape}

inductive Lookup : Shape → Type
  | has (k : PropertyKey) : Lookup .flag
  | get (receiver : Value) (k : PropertyKey) : Lookup .value
  | set (k : PropertyKey) (v receiver : Value) : Lookup .outcome

namespace Lookup

def op : Lookup s → ObjectId → Op s
  | has k, o => .has o k
  | get receiver k, o => .get o receiver k
  | set k v receiver, o => .set o k v receiver

def key : Lookup s → PropertyKey
  | has k => k
  | get _ k => k
  | set k _ _ => k

def found : Lookup s → Descriptor → Program σ s.Answer
  | has _, _ => return Except.ok true
  | get receiver _, d => (Ordinary.readThrough d receiver).run
  | set k v receiver, d => (Ordinary.assign d k v receiver).run

def missed : Lookup s → Program σ s.Answer
  | has _ => return Except.ok false
  | get .. => return Except.ok .undefined
  | set k v receiver => (Ordinary.assign (.ofData .undefined) k v receiver).run

/-- What is left of the lookup once it has climbed the objects `os` of a chain that ends
with `last`. -/
def after (l : Lookup s) (c : Context) (os : List ObjectId) (last : Option ObjectId) :
    Program σ s.Answer :=
  match c.nearest? os l.key, last with
  | some d, _ => l.found d
  | none, some r => Program.perform (l.op r)
  | none, none => l.missed

def onPlain (l : Lookup s) (o : ObjectId) : Program σ s.Answer := do
  match ← (Attempt.getOwnProperty o l.key).run with
  | .error _ => return s.givenUp
  | .ok (some d) => l.found d
  | .ok none =>
    match ← (Attempt.getPrototype o).run with
    | .error _ => return s.givenUp
    | .ok (some p) => Program.perform (l.op p)
    | .ok none => l.missed

theorem method_plain (l : Lookup s) (o : ObjectId) :
    (Plain.method (l.op o) : Program σ s.Answer) = l.onPlain o := by
  -- All three ask for the own property first and for the prototype if there is none.
  cases l <;>
  · refine Eq.trans (ExceptT.run_bind ..) (bind_congr fun own => ?_)
    rcases own with _ | _ | d
    · rfl
    · refine Eq.trans (ExceptT.run_bind ..) (bind_congr fun up => ?_)
      rcases up with _ | _ | p <;> rfl
    · rfl

section

variable {l : Lookup s} {c : Context} {o : ObjectId} {os : List ObjectId} {last : Option ObjectId}

theorem after_of_own {d : Descriptor} (own : c.ownDescriptor? o l.key = some d) :
    l.after (σ := σ) c (o :: os) last = l.found d := by
  unfold after Context.nearest?
  rw [List.findSome?_cons, own]

theorem after_of_missing (missing : c.ownDescriptor? o l.key = none) :
    l.after (σ := σ) c (o :: os) last = l.after c os last := by
  unfold after Context.nearest?
  rw [List.findSome?_cons, missing]

end

@[simp] theorem subject_op (l : Lookup s) (o : ObjectId) : (l.op o).subject = o := by
  cases l <;> rfl

@[simp] theorem query?_op (l : Lookup s) (o : ObjectId) : (l.op o).query? = none := by
  cases l <;> rfl

end Lookup

namespace Engine

open Context

variable {F : Foreign σ} {m : Machine σ} {o q : ObjectId} {x : Object} {os : List ObjectId}
  {last : Option ObjectId}

theorem issue_climb (l : Lookup s) (fuel : Nat) (found : m.context.get? o = some x)
    (other : x.proxy? = none) :
    issue F (fuel + 2) (l.op o) m =
      ((m.context.ownDescriptor? o l.key).elim
        (x.prototype.elim l.missed fun p => Program.perform (l.op p)) l.found).run
          (Engine.answer F (fuel + 1)) m := by
  have stored : m.context.storedPrototype o = x.prototype := by simp [storedPrototype, found]
  cases l with
  | has k =>
    refine (issue_ordinary (fuel + 1) rfl found other).trans ((run_has _ o k m).trans ?_)
    rw [stored, Lookup.key]
    cases m.context.ownDescriptor? o k with
    | some d => rfl
    | none => cases x.prototype <;> rfl
  | get receiver k =>
    refine (issue_ordinary (fuel + 1) rfl found other).trans ((run_get _ o receiver k m).trans ?_)
    rw [stored, Lookup.key]
    cases m.context.ownDescriptor? o k with
    | some d => rfl
    | none => cases x.prototype <;> rfl
  | set k v receiver =>
    refine (issue_set (fuel + 1) found other rfl receiver).trans ?_
    rw [Lookup.key]
    cases m.context.ownDescriptor? o k with
    | some d => rfl
    | none =>
      have proto := issue_getPrototype (F := F) fuel found other
      rw [← run_perform] at proto
      refine (Attempt.run_of proto).trans ?_
      cases x.prototype <;> rfl

/-- A lookup climbs the whole chain of ordinary objects, or to the first that has the
property, in as many steps as there are objects. -/
theorem issue_ascent (l : Lookup s) (ascent : m.context.Ascent (some q) os last) :
    ∃ n ≤ os.length, ∀ fuel, issue F (fuel + n + 1) (l.op q) m =
      (l.after m.context os last).run (Engine.answer F (fuel + 1)) m := by
  generalize start : some q = start at ascent
  induction ascent generalizing q with
  | null => cases start
  | @stop o =>
    cases start
    exact ⟨0, Nat.le_refl _, fun fuel => (congrFun (run_perform (fuel + 1) _) m).symm⟩
  | @next _ p last os here rest ih =>
    obtain rfl := Option.some.inj start
    obtain ⟨x, found, other, rfl⟩ := onward?_eq_some.1 here
    have other : x.proxy? = none := by simpa [Object.isProxy_eq] using other
    cases own : m.context.ownDescriptor? q l.key with
    | some d =>
      refine ⟨1, Nat.succ_le_succ (Nat.zero_le _), fun fuel => ?_⟩
      rw [issue_climb l fuel found other, own, Lookup.after_of_own own]
      rfl
    | none =>
      rw [Lookup.after_of_missing own]
      cases up : x.prototype with
      | none =>
        rw [up] at rest
        cases rest
        refine ⟨1, Nat.le_refl _, fun fuel => ?_⟩
        rw [issue_climb l fuel found other, own, up]
        rfl
      | some p =>
        obtain ⟨n, short, climbs⟩ := ih up.symm
        refine ⟨n + 1, Nat.succ_le_succ short, fun fuel => ?_⟩
        rw [← climbs fuel, ← Nat.add_assoc, issue_climb l (fuel + n) found other, own, up]
        exact congrFun (run_perform _ _) m

end Engine

/-! Runs in which no handle is made up. -/

def Event.prototype? : Event → Option ObjectId
  | asked (.act a) => a.prototype?
  | _ => none

/-- Every prototype that is ever asked to be stored, by whomever, is a handle that an
earlier allocation returned. -/
def History.Handed (t : History) : Prop :=
  ∀ μ ∈ t, ∀ o ∈ μ.event.prototype?, μ.context.heap.Issued o

instance (t : History) : Decidable t.Handed :=
  inferInstanceAs (Decidable (∀ μ ∈ t, ∀ o ∈ μ.event.prototype?, μ.context.heap.Issued o))

namespace History

variable {t t' past : History} {c : Context} {e : Event}

def Sound (t : History) : Prop :=
  ∀ μ ∈ t, μ.context.Sound

theorem handed_flat : t.flat.Handed ↔ t.Handed := by
  simp only [Handed, flat, List.forall_mem_map]

theorem sound_flat : t.flat.Sound ↔ t.Sound := by
  simp only [Sound, flat, List.forall_mem_map]

theorem Handed.left (handed : (past.then c e).Handed) : past.Handed :=
  fun μ listed => handed μ (List.mem_append_left _ listed)

theorem Handed.now (handed : (past.then c e).Handed) :
    ∀ o, e.prototype? = some o → c.heap.Issued o :=
  handed _ (List.mem_append_right _ (.head _))

theorem Sound.then (sound : past.Sound) (now : c.Sound) : (past.then c e).Sound := by
  intro μ listed
  rcases List.mem_append.1 listed with before | last
  · exact sound μ before
  · rw [List.mem_singleton.1 last]
    exact now

end History

namespace Engine

open Context

variable (F : Foreign σ)

theorem upholds_sound : Upholds F (fun past c => past.Handed → past.Sound ∧ c.Sound)
    fun past => past.Handed → past.Sound where
  told _ _ holds handed := (holds handed).1
  asked _ _ holds handed := (holds handed.left).1.then (holds handed.left).2
  moment _ _ _ holds handed :=
    ⟨(holds handed.left).1.then (holds handed.left).2, (holds handed.left).2⟩
  act _ _ ran holds handed :=
    have ⟨before, now⟩ := holds handed.left
    ⟨before.then now, now.update ran handed.now⟩
  depth _ _ _ step holds handed := ⟨(holds handed).1, (holds handed).2.rest step rfl⟩
  collect m finalizers := by
    refine keeps_collect (fun _ _ holds handed => (holds handed).1) (fun _ _ holds handed => ?_)
      (fun _ _ _ marked _ _ holds handed => ?_) finalizers m
    · exact ⟨(holds handed.left).1.then (holds handed.left).2, (holds handed.left).2⟩
    · exact ⟨(holds handed).1, (holds handed).2.sweep _ marked⟩

theorem run_sound (fuel : Nat) (p : Program σ α) {options : ContextOptions} {s₀ : σ}
    (handed : (runHistory F fuel p ⟨create options, s₀⟩).Handed) :
    (runHistory F fuel p ⟨create options, s₀⟩).Sound ∧
      ∀ a m', run F fuel p ⟨create options, s₀⟩ = .ok (a, m') → m'.context.Sound := by
  have kept := (upholds_sound F).run fuel p ⟨create options, s₀⟩ [] fun _ =>
    ⟨fun _ listed => absurd listed List.not_mem_nil, sound_create options⟩
  rw [← History.handed_flat] at handed
  exact ⟨History.sound_flat.1 (kept.told handed), fun a m' ran => (kept.ended a m' ran handed).2⟩

/-- In every run that stores only issued handles as prototypes, all chains of prototypes
end in all contexts: no object is met twice, and the last handle is dead or a proxy. The
cycle check meets what the chain meets, whatever budget beyond its length the walk has.
Asking for a property, reading it or assigning to it climbs the chain in at most as many
steps as it has objects; what is left is done with the property, or at the last handle. -/
theorem prototypes_ascend (fuel : Nat) (p : Program σ α) (options : ContextOptions) (s₀ : σ) :
    let m : Machine σ := ⟨Context.create options, s₀⟩
    let t := runHistory F fuel p m
    t.Handed → ∀ c : Context,
      (∃ μ ∈ t, μ.context = c) ∨ (∃ a m', run F fuel p m = .ok (a, m') ∧ m'.context = c) →
      ∀ q, ∃ os last, c.Ascent q os last ∧ os.Nodup ∧ os.length ≤ c.heap.slotCount ∧
        (∀ r, last = some r → c.isLive r = false ∨ c.isProxy r = true) ∧
        (∀ o budget, os.length < budget →
          (c.prototypeWalkMeets o budget q = true ↔ o ∈ os ∨ last = some o)) ∧
        ∀ {s : Shape} (l : Lookup s) (o : ObjectId) (state : σ), q = some o →
          ∃ n ≤ os.length, ∀ fuel, issue F (fuel + n + 1) (l.op o) ⟨c, state⟩ =
            (l.after c os last).run (answer F (fuel + 1)) ⟨c, state⟩ := by
  intro m t handed c occurs q
  have sound : c.Sound := by
    obtain ⟨along, at_end⟩ := run_sound F fuel p handed
    rcases occurs with ⟨μ, listed, rfl⟩ | ⟨a, m', ran, rfl⟩
    · exact along μ listed
    · exact at_end a m' ran
  obtain ⟨os, last, ascent⟩ := sound.grounded.ascends q
  refine ⟨os, last, ascent, ascent.nodup, ascent.length_le,
    fun r ends => onward?_eq_none.1 (ascent.last_stops ends),
    fun o budget enough => ascent.walkMeets enough o, ?_⟩
  rintro s l o state rfl
  exact issue_ascent (m := ⟨c, state⟩) l ascent

def newLoop : Program Unit (ObjectId × ObjectId) := do
  let o ← Program.newObject none
  let p ← Program.newProxy (.builtin .plain) .undefined (some o) {}
  discard <| Program.storePrototype o (some p)
  return (o, p)

/-- The loop is closed through the proxy, and the chain of the object ends there. -/
theorem loop_ascends : ∃ o p m,
    run Foreign.idle 4 newLoop ⟨Context.create {}, ()⟩ = .ok ((o, p), m) ∧
    m.context.storedPrototype o = some p ∧ m.context.storedPrototype p = some o ∧
    m.context.Ascent (some o) [o] (some p) ∧
    ∃ n ≤ 1, ∀ fuel, issue Foreign.idle (fuel + n + 1) (.has o .void) m =
      issue Foreign.idle (fuel + 1) (.has p .void) m := by
  have made : ∃ r m, run Foreign.idle 4 newLoop ⟨Context.create {}, ()⟩ = .ok (r, m) := ⟨_, _, rfl⟩
  obtain ⟨⟨o, p⟩, m, ran⟩ := made
  have ascends := prototypes_ascend Foreign.idle 4 newLoop {} () (by decide +kernel) m.context
    (.inr ⟨_, m, ran, rfl⟩) (some o)
  cases ran
  obtain ⟨os, last, ascent, -, -, -, -, climbs⟩ := ascends
  obtain ⟨rfl, rfl⟩ := ascent.unique (.next rfl (.stop rfl))
  obtain ⟨n, short, climbs⟩ := climbs (.has .void) _ () rfl
  exact ⟨_, _, _, rfl, rfl, rfl, ascent, n, short, fun fuel =>
    (climbs fuel).trans (congrFun (run_perform (fuel + 1) _) _)⟩

end Engine

end ProxyEngine
