import ProxyEngine.Operation.Operand
import ProxyEngine.Proofs.Engine.Dispatch
import ProxyEngine.Proofs.Value

/-! An operation is nothing but its slot, its subject and its operands, so to ask
the same of another object is to keep slot and operands and to change the
subject. A construct also has a new target, which may have to follow. -/

namespace ProxyEngine

/-- A new target that is not an object, or is one of `ws`, becomes `t`. -/
def Value.retarget (ws : List ObjectId) (t : ObjectId) (v : Value) : Value :=
  if v.isObject ∧ ∀ w ∈ ws, v.asObject? ≠ some w then v else .object t

def Operand.retarget (ws : List ObjectId) (t : ObjectId) : String × Operand → String × Operand
  | ("newTarget", value v) => ("newTarget", value (v.retarget ws t))
  | operand => operand

namespace Op

variable {s : Shape}

theorem eq_of_operands {op op' : Op s} (slots : op.slot = op'.slot)
    (subjects : op.subject = op'.subject) (operands : op.operands = op'.operands) : op = op' := by
  -- Slots tell the constructors apart; what is left are operations of one constructor.
  cases op <;> cases op' <;> simp only [slot, reduceCtorEq] at slots <;>
    simp_all [Op.subject, Op.operands, Operand.object?, Value.objectOrNull_inj, Value.boolean_inj]

/-- `op'` asks of `t` what `op` asks of an object that leads to `t` through `ws`. -/
structure Restates (ws : List ObjectId) (t : ObjectId) (op op' : Op s) : Prop where
  slot : op'.slot = op.slot
  subject : op'.subject = t
  operands : op'.operands = op.operands.map (Operand.retarget ws t)

def retarget (ws : List ObjectId) (t : ObjectId) : Op s → Op s
  | construct _ args newTarget => construct t args (newTarget.retarget ws t)
  | other => other.redirect t

theorem restates_retarget (ws : List ObjectId) (t : ObjectId) (op : Op s) :
    op.Restates ws t (op.retarget ws t) := by
  cases op <;> exact ⟨rfl, rfl, rfl⟩

theorem Restates.eq_retarget {ws : List ObjectId} {t : ObjectId} {op op' : Op s}
    (same : op.Restates ws t op') : op' = op.retarget ws t := by
  have known := restates_retarget ws t op
  exact eq_of_operands (same.slot.trans known.slot.symm) (same.subject.trans known.subject.symm)
    (same.operands.trans known.operands.symm)

theorem retarget_nil (op : Op s) : op.retarget [] op.subject = op.normalized := by
  cases op with
  | construct o args newTarget => simp [retarget, Value.retarget, normalized, subject]
  | _ => rfl

theorem retarget_cons {o t : ObjectId} {ws : List ObjectId} (leads : o = t ∨ o ∈ ws) (op : Op s) :
    (op.normalized.redirect o).retarget ws t = op.retarget (op.subject :: ws) t := by
  cases op with
  | construct w args newTarget =>
    have ends : (Value.object o).retarget ws t = .object t := by
      obtain rfl | listed := leads
      · unfold Value.retarget
        split <;> rfl
      · exact if_neg fun both => both.2 o listed (Value.asObject?_object o)
    simp only [normalized, redirect, retarget, subject, construct.injEq, true_and]
    by_cases object : newTarget.isObject
    · by_cases same : newTarget.asObject? = some w
      · have follows : newTarget.retarget (w :: ws) t = .object t :=
          if_neg fun both => both.2 w (.head _) same
        simp [object, same, ends, follows]
      · simp [object, same, Value.retarget]
    · have follows : newTarget.retarget (w :: ws) t = .object t :=
        if_neg fun both => object both.1
      simp [object, ends, follows]
  | _ => rfl

@[simp] theorem query?_retarget (ws : List ObjectId) (t : ObjectId) (op : Op s) :
    (op.retarget ws t).query? = op.query?.map (Op.redirect t) := by
  cases op <;> rfl

@[simp] theorem subject_retarget (ws : List ObjectId) (t : ObjectId) (op : Op s) :
    (op.retarget ws t).subject = t :=
  (restates_retarget ws t op).subject

@[simp] theorem complaint_retarget (ws : List ObjectId) (t : ObjectId) (op : Op s) :
    (op.retarget ws t).complaint = op.complaint := by
  cases op <;> rfl

end Op

end ProxyEngine
