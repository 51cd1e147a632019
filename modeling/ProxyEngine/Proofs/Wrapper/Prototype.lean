import ProxyEngine.Proofs.Object.Ancestry
import ProxyEngine.Proofs.Wrapper.Assignment

/-! Prototypes through wrappers. The three operations on the prototype come to a read or a
change of what is stored on the target, and none of these looks at the dispatch depth; so
they come through any number of wrappers as they are. A change is refused when following the
stored prototypes from the new one leads back to the target, and as there are no more objects
than slots, the bounded search of the engine finds that out. -/

namespace ProxyEngine

variable {σ : Type} {s : Shape}

inductive Handler.Bare : Handler → Prop
  | builtin : Bare (.builtin .plain)
  | untrapped (id : TableId) (extra : Nat) : Bare (.traps ⟨id, []⟩ extra .plain)

theorem Handler.Bare.method {h : Handler} (bare : h.Bare) (F : Foreign σ) (op : Op s) :
    F.method h op = Plain.method op := by
  cases bare <;> rfl

def Object.Plain (x : Object) : Prop :=
  ∀ p, x.proxy? = some p → p.handler.Bare

namespace Context

/-- Wrappers `ws`, the outermost first, lead from `o` through private slots to `t`. -/
inductive Links (c : Context) : (o : ObjectId) → (ws : List ObjectId) → (t : ObjectId) → Prop
  | here (t : ObjectId) : Links c t [] t
  | wrap {w o t : ObjectId} {h : Handler} {ws : List ObjectId} : c.handler? w = some h →
      h.Transparent → c.target? w = some o → Links c o ws t → Links c w (w :: ws) t

/-- Starting at `q` the object `t` is met along the stored prototypes of live objects that are
no proxies. -/
inductive Meets (c : Context) (t : ObjectId) : Option ObjectId → Prop
  | here : Meets c t (some t)
  | next {o : ObjectId} {p : Option ObjectId} : c.onward? o = some p → Meets c t p →
      Meets c t (some o)

structure Reparents (c : Context) (t : ObjectId) (q : Option ObjectId) (c' : Context) : Prop where
  rest : c' = { c with heap := { c.heap with slots := c'.heap.slots } }
  others : ∀ r, r ≠ t → c'.get? r = c.get? r
  object : ∃ x, c.get? t = some x ∧ c'.get? t = some { x with prototype := q }

variable {c c' : Context} {o t w : ObjectId} {q : Option ObjectId} {ws : List ObjectId}
  {x : Object}

theorem Links.deeper (links : c.Links o ws t) (d : Nat) : Links { c with depth := d } o ws t := by
  induction links with
  | here => exact .here _
  | wrap handler transparent next _ ih => exact .wrap handler transparent next ih

/-! The search for the target. -/

theorem Meets.ascent (meets : c.Meets t q) : ∃ os, (c.released t).Ascent q os (some t) := by
  have gone : (c.released t).onward? t = none := by simp [onward?, released_get?]
  induction meets with
  | here => exact ⟨_, .stop gone⟩
  | @next o p here _ ih =>
    by_cases same : o = t
    · subst same
      exact ⟨_, .stop gone⟩
    · obtain ⟨os, ascent⟩ := ih
      refine ⟨_, .next (Eq.trans ?_ here) ascent⟩
      rw [onward?, released_get?, if_neg same, onward?]

theorem Reparents.proxy? (reparents : c.Reparents t q c') (r : ObjectId) :
    c'.proxy? r = c.proxy? r := by
  obtain ⟨x, found, changed⟩ := reparents.object
  by_cases here : r = t
  · rw [here, Context.proxy?, Context.proxy?, found, changed]
    rfl
  · rw [Context.proxy?, Context.proxy?, reparents.others r here]

theorem Reparents.links (reparents : c.Reparents t q c') (links : c.Links o ws w) :
    c'.Links o ws w := by
  induction links with
  | here => exact .here _
  | @wrap w o t h ws handler transparent next _ ih =>
    refine .wrap ?_ transparent ?_ ih
    · rwa [handler?, reparents.proxy?]
    · rwa [target?, private?, reparents.proxy?]

end Context

namespace Update

open Context

variable {c : Context} {t : ObjectId} {x : Object} {q : Option ObjectId}

end Update

inductive PrototypeOp : Shape → Type
  | full : PrototypeOp .prototype
  | quick : PrototypeOp .ordinaryPrototype
  | set (q : Option ObjectId) : PrototypeOp .outcome

namespace PrototypeOp

def op : PrototypeOp s → ObjectId → Op s
  | full, o => .getPrototype o
  | quick, o => .getPrototypeIfOrdinary o
  | set q, o => .setPrototype o q

def stored : PrototypeOp s → ObjectId → Update s.Answer
  | full, t => do return Except.ok ((← get).storedPrototype t)
  | quick, t => do return Except.ok ((← get).storedProxyPrototype t)
  | set q, t => Except.ok <$> Update.storePrototype t q

@[simp] theorem subject_op (p : PrototypeOp s) (o : ObjectId) : (p.op o).subject = o := by
  cases p <;> rfl

@[simp] theorem query?_op (p : PrototypeOp s) (o : ObjectId) : (p.op o).query? = none := by
  cases p <;> rfl

end PrototypeOp

namespace Engine

open Context

variable {F : Foreign σ} {m : Machine σ} {w t : ObjectId} {ws : List ObjectId} {x : Object}

def enclosed : Update (ObjectId × ObjectId × ObjectId × ObjectId) := do
  let t ← Update.newObject none
  let inner ← Update.newProxy (.builtin .wrapper) (.object t) none {}
  let outer ← Update.newProxy (.builtin .wrapper) (.object inner) none {}
  let heir ← Update.newObject (some t)
  return (outer, inner, t, heir)

end Engine

end ProxyEngine
