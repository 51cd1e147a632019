import ProxyEngine.Proofs.Wrapper.Assignment

/-! Operations along ordinary prototype chains. Where every object up to the end of
the chain is live and no proxy, what the derived operations answer can be read off
the stored properties: nothing runs, nothing changes and no level is entered. -/

namespace ProxyEngine

namespace Context

/-- From `o` along the stored prototypes to the end of the chain there are the live
objects `os`, none of which is a proxy. -/
inductive Lineage (c : Context) : (o : Option ObjectId) → (os : List ObjectId) → Prop
  | ends : Lineage c none []
  | next {o : ObjectId} {x : Object} {os : List ObjectId} : c.get? o = some x →
      x.proxy? = none → Lineage c x.prototype os → Lineage c (some o) (o :: os)

namespace Lineage

variable {c : Context} {o : Option ObjectId} {q : ObjectId} {os os' : List ObjectId}

theorem deeper (lineage : c.Lineage o os) (d : Nat) : Lineage { c with depth := d } o os := by
  induction lineage with
  | ends => exact .ends
  | next found other _ ih => exact .next found other ih

theorem start (lineage : c.Lineage (some q) os) :
    ∃ x rest, q :: rest = os ∧ c.get? q = some x ∧ x.proxy? = none ∧
      c.Lineage (c.storedPrototype q) rest := by
  obtain _ | @⟨_, x, rest, found, other, later⟩ := lineage
  have stored : c.storedPrototype q = x.prototype := by simp [storedPrototype, found]
  exact ⟨x, rest, rfl, found, other, stored ▸ later⟩

theorem unique (lineage : c.Lineage o os) (lineage' : c.Lineage o os') : os = os' := by
  induction lineage generalizing os' with
  | ends =>
    cases lineage'
    rfl
  | next found _ _ ih =>
    obtain _ | ⟨found', _, rest'⟩ := lineage'
    obtain rfl := Option.some.inj (found.symm.trans found')
    rw [ih rest']

theorem ordinary (lineage : c.Lineage o os) (listed : q ∈ os) :
    ∃ x, c.get? q = some x ∧ x.proxy? = none := by
  induction lineage with
  | ends => cases listed
  | next found other _ ih =>
    rcases List.mem_cons.1 listed with rfl | later
    · exact ⟨_, found, other⟩
    · exact ih later

theorem from_mem (lineage : c.Lineage o os) (listed : q ∈ os) :
    ∃ os', c.Lineage (some q) os' ∧ os'.length ≤ os.length := by
  induction lineage with
  | ends => cases listed
  | next found other rest ih =>
    rcases List.mem_cons.1 listed with rfl | later
    · exact ⟨_, .next found other rest, Nat.le_refl _⟩
    · obtain ⟨os', lineage', shorter⟩ := ih later
      exact ⟨os', lineage', Nat.le_succ_of_le shorter⟩

theorem nodup (lineage : c.Lineage o os) : os.Nodup := by
  induction lineage with
  | ends => exact .nil
  | @next o x os found other rest ih =>
    refine List.nodup_cons.2 ⟨fun listed => ?_, ih⟩
    obtain ⟨os', again, shorter⟩ := rest.from_mem listed
    obtain rfl := (next found other rest).unique again
    exact absurd shorter (Nat.not_succ_le_self _)

theorem plain {k : PropertyKey} (lineage : c.Lineage (some q) os)
    (data : ∀ o ∈ os, ∀ own, c.ownDescriptor? o k = some own → own.isAccessor = false) :
    c.PlainChain k q := by
  induction os generalizing q with
  | nil => cases lineage
  | cons o os ih =>
    have here := data o (.head _)
    obtain _ | @⟨_, x, _, found, other, rest⟩ := lineage
    cases up : x.prototype with
    | none => exact .last found other here up
    | some q =>
      rw [up] at rest
      exact .next found other here up (ih rest fun o listed => data o (.tail _ listed))

end Lineage

theorem ownEnumerableKeys_eq (c : Context) (o : ObjectId) :
    c.ownEnumerableKeys o =
      (c.ownKeys o).filter fun k => (c.ownDescriptor? o k).any Descriptor.isEnumerable := by
  have same (p : Property) : p.toDescriptor.isEnumerable = p.attributes.enumerable := by
    cases p <;> rfl
  unfold ownEnumerableKeys ownDescriptor?
  congr 1
  funext k
  cases c.ownProperty? o k with
  | none => rfl
  | some p => exact (same p).symm

/-- Own keys that are new to a walk and enumerable, and all keys met by then. -/
def freshKeys (own : PropertyKey → Option Descriptor) : List PropertyKey →
    (seen : List PropertyKey) → List PropertyKey × List PropertyKey
  | [], seen => ([], seen)
  | k :: ks, seen =>
    if k.isSymbol || seen.contains k then freshKeys own ks seen
    else
      let (fresh, seen) := freshKeys own ks (k :: seen)
      (if (own k).any Descriptor.isEnumerable then k :: fresh else fresh, seen)

def enumerated (c : Context) : List ObjectId → (seen : List PropertyKey) → List PropertyKey
  | [], _ => []
  | o :: os, seen =>
    let (fresh, seen) := freshKeys (c.ownDescriptor? o) (c.ownKeys o) seen
    fresh ++ c.enumerated os seen

theorem enumerated_nil (c : Context) (seen : List PropertyKey) : c.enumerated [] seen = [] := rfl

theorem enumerated_cons (c : Context) (o : ObjectId) (os : List ObjectId)
    (seen : List PropertyKey) :
    c.enumerated (o :: os) seen =
      (freshKeys (c.ownDescriptor? o) (c.ownKeys o) seen).1 ++
        c.enumerated os (freshKeys (c.ownDescriptor? o) (c.ownKeys o) seen).2 := rfl

theorem enumerated_level (c : Context) (d : Nat) (os : List ObjectId) (seen : List PropertyKey) :
    enumerated { c with depth := d } os seen = c.enumerated os seen := by
  induction os generalizing seen with
  | nil => rfl
  | cons o os ih => exact congrArg _ (ih _)

def nearest? (c : Context) (os : List ObjectId) (k : PropertyKey) : Option Descriptor :=
  os.findSome? fun o => c.ownDescriptor? o k

end Context

namespace Engine

open Context

variable {σ : Type} {F : Foreign σ} {m : Machine σ} {fuel : Nat} {o t : ObjectId}
  {os : List ObjectId} {k : PropertyKey} {x : Object}

/-- The object `o` answers the three questions about own properties and prototype with
what is stored on `t`. -/
structure Mirrors (F : Foreign σ) (fuel : Nat) (o t : ObjectId) (m : Machine σ) : Prop where
  keys : ∀ listed, issue F fuel (.ownKeys o listed) m =
    .ok (({ keys := listed ++ m.context.ownKeys t } : Listing), m)
  own : ∀ k, issue F fuel (.getOwnProperty o k) m = .ok (.ok (m.context.ownDescriptor? t k), m)
  prototype : issue F fuel (.getPrototype o) m = .ok (.ok (m.context.storedPrototype t), m)

theorem mirrors_self (fuel : Nat) (found : m.context.get? t = some x) (other : x.proxy? = none) :
    Mirrors F (fuel + 1) t t m where
  keys _ := issue_ordinary fuel rfl found other
  own _ := issue_ordinary fuel rfl found other
  prototype := issue_ordinary fuel rfl found other

theorem run_visitKeys {own : PropertyKey → Option Descriptor}
    (answers : ∀ k, issue F fuel (.getOwnProperty o k) m = .ok (.ok (own k), m))
    (ks seen listed : List PropertyKey) :
    (Ordinary.visitKeys o ks seen listed).run (Engine.answer F fuel) m =
      .ok (({ keys := listed ++ (freshKeys own ks seen).1 }, (freshKeys own ks seen).2), m) := by
  induction ks generalizing seen listed with
  | nil =>
    rw [freshKeys, List.append_nil]
    rfl
  | cons k ks ih =>
    unfold Ordinary.visitKeys freshKeys
    cases (k.isSymbol || seen.contains k) with
    | true => exact ih seen listed
    | false =>
      have asked := answers k
      rw [← run_perform] at asked
      simp only [Bool.false_eq_true, if_false]
      rw [Program.run_bind]
      refine (Run.bind_of_ok asked).trans ((ih (k :: seen) _).trans ?_)
      cases (own k).any Descriptor.isEnumerable <;> simp

theorem run_enumerateFrom (mirrors : Mirrors F fuel o t m) {visited : List ObjectId}
    (unvisited : o ∉ visited) (seen listed : List PropertyKey)
    (rest : m.context.Lineage (m.context.storedPrototype t) os)
    (walk : ∀ q seen listed, m.context.Lineage (some q) os →
      Engine.answer F fuel (.enumerateFrom q (o :: visited) seen listed) m =
        .ok (({ keys := listed ++ m.context.enumerated os seen } : Listing), m)) :
    (Ordinary.enumerateFrom o visited seen listed).run (Engine.answer F fuel) m =
      .ok ({ keys := listed ++ m.context.enumerated (t :: os) seen }, m) := by
  have keys := mirrors.keys []
  have prototype := mirrors.prototype
  rw [← run_perform] at keys prototype
  have visits := run_visitKeys mirrors.own (m.context.ownKeys t) seen listed
  unfold Ordinary.enumerateFrom
  rw [if_neg (by simpa using unvisited), Program.run_bind]
  refine (Run.bind_of_ok keys).trans ?_
  dsimp only
  rw [if_neg Bool.false_ne_true, Program.run_bind]
  refine (Run.bind_of_ok visits).trans ?_
  dsimp only
  rw [if_neg Bool.false_ne_true, Program.run_bind]
  refine (Run.bind_of_ok prototype).trans ?_
  rw [enumerated_cons, ← List.append_assoc]
  cases up : m.context.storedPrototype t with
  | none =>
    rw [up] at rest
    cases rest
    rw [enumerated_nil, List.append_nil]
    rfl
  | some q =>
    rw [up] at rest
    exact (congrFun (Program.run_ask _ _) m).trans (walk q _ _ rest)

theorem answer_enumerateFrom (lineage : m.context.Lineage (some o) os)
    {visited : List ObjectId} (unvisited : ∀ q ∈ os, q ∉ visited)
    (seen listed : List PropertyKey) (enough : os.length < fuel) :
    Engine.answer F fuel (.enumerateFrom o visited seen listed) m =
      .ok (({ keys := listed ++ m.context.enumerated os seen } : Listing), m) := by
  induction os generalizing o visited seen listed fuel with
  | nil => cases lineage
  | cons o os ih =>
    have apart := (List.nodup_cons.1 lineage.nodup).1
    obtain ⟨x, os, ⟨⟩, found, other, rest⟩ := lineage.start
    obtain ⟨fuel, rfl⟩ : ∃ n, fuel = n + 2 :=
      Nat.exists_eq_add_of_le' (by simp only [List.length_cons] at enough; omega)
    -- Each object joins the visited ones; no lineage meets it again.
    have unvisited' : ∀ p ∈ os, p ∉ o :: visited := by
      intro p listed again
      rcases List.mem_cons.1 again with rfl | before
      · exact apart listed
      · exact unvisited p (.tail _ listed) before
    exact run_enumerateFrom (mirrors_self fuel found other) (unvisited o (.head _)) seen listed rest
      fun q seen listed lineage => ih lineage unvisited' seen listed (by simpa using enough)

theorem run_has (answer : Answerer σ) (o : ObjectId) (k : PropertyKey) (m : Machine σ) :
    (Ordinary.method (.has o k)).run answer m =
      (if (m.context.ownDescriptor? o k).isSome then pure true
        else (m.context.storedPrototype o).elim (pure false) fun q => Attempt.has q k :
          Attempt σ Bool).run.run answer m := by
  show (Ordinary.has o k).run.run answer m = _
  rw [Ordinary.has, Attempt.run_context]
  cases (m.context.ownDescriptor? o k).isSome with
  | true => rfl
  | false => cases m.context.storedPrototype o <;> rfl

theorem issue_has (lineage : m.context.Lineage (some o) os) (k : PropertyKey)
    (enough : os.length ≤ fuel) :
    issue F fuel (.has o k) m = .ok (.ok (m.context.nearest? os k).isSome, m) := by
  induction os generalizing o fuel with
  | nil => cases lineage
  | cons o os ih =>
    obtain ⟨x, os, ⟨⟩, found, other, rest⟩ := lineage.start
    obtain ⟨fuel, rfl⟩ : ∃ n, fuel = n + 1 := Nat.exists_eq_add_of_le' (Nat.one_le_of_lt enough)
    rw [issue_ordinary fuel rfl found other, run_has, nearest?, List.findSome?_cons]
    cases m.context.ownDescriptor? o k with
    | some d => rfl
    | none =>
      cases up : m.context.storedPrototype o with
      | none =>
        rw [up] at rest
        cases rest
        rfl
      | some q =>
        rw [up] at rest
        exact (congrFun (run_perform fuel _) m).trans (ih rest (Nat.le_of_succ_le_succ enough))

def quietValue (nearest : Option Descriptor) : Value :=
  match nearest with
  | some d => if d.isAccessor then .undefined else d.valueOrUndefined
  | none => .undefined

theorem run_get (answer : Answerer σ) (o : ObjectId) (receiver : Value) (k : PropertyKey)
    (m : Machine σ) :
    (Ordinary.method (.get o receiver k)).run answer m =
      ((m.context.ownDescriptor? o k).elim
        ((m.context.storedPrototype o).elim (pure .undefined) fun q => Attempt.get q receiver k)
        fun d => Ordinary.readThrough d receiver : Attempt σ Value).run.run answer m := by
  show (Ordinary.get o receiver k).run.run answer m = _
  rw [Ordinary.get, Attempt.run_context]
  cases m.context.ownDescriptor? o k with
  | some d => rfl
  | none => cases m.context.storedPrototype o <;> rfl

theorem issue_get (lineage : m.context.Lineage (some o) os) {k : PropertyKey}
    (ungettable : ∀ d, m.context.nearest? os k = some d → d.getter? = none) (receiver : Value)
    (enough : os.length ≤ fuel) :
    issue F fuel (.get o receiver k) m =
      .ok (.ok (quietValue (m.context.nearest? os k)), m) := by
  induction os generalizing o fuel with
  | nil => cases lineage
  | cons o os ih =>
    obtain ⟨x, os, ⟨⟩, found, other, rest⟩ := lineage.start
    obtain ⟨fuel, rfl⟩ : ∃ n, fuel = n + 1 := Nat.exists_eq_add_of_le' (Nat.one_le_of_lt enough)
    rw [issue_ordinary fuel rfl found other, run_get]
    rw [nearest?, List.findSome?_cons] at ungettable ⊢
    cases own : m.context.ownDescriptor? o k with
    | some d =>
      have unset := ungettable d (by rw [own])
      rw [Option.elim_some]
      dsimp only [quietValue, Ordinary.readThrough]
      rw [unset]
      cases d.isAccessor <;> rfl
    | none =>
      rw [own] at ungettable
      cases up : m.context.storedPrototype o with
      | none =>
        rw [up] at rest
        cases rest
        rfl
      | some q =>
        rw [up] at rest
        exact (congrFun (run_perform fuel _) m).trans
          (ih rest ungettable (Nat.le_of_succ_le_succ enough))

end Engine

end ProxyEngine
