/-!
Outcomes of operations that can be refused without failing. A refusal is a
reason code; a caller that is strict turns it into an error, any other caller
reads it and goes on. The raw form is one word in which zero means success, and
a word without a meaning is still a refusal.
-/

namespace ProxyEngine

inductive Refusal where
  | readOnly
  | cantDefineProperty
  | cantRedefineProperty
  | cantDelete
  | cantSetPrototype
  | cantPreventExtensions
  | notExtensible
  | getterOnly
  | notObjectReceiver
  deriving DecidableEq, Inhabited

namespace Refusal

def all : List Refusal :=
  [readOnly, cantDefineProperty, cantRedefineProperty, cantDelete, cantSetPrototype,
    cantPreventExtensions, notExtensible, getterOnly, notObjectReceiver]

def code : Refusal → UInt64
  | readOnly => 1
  | cantDefineProperty => 2
  | cantRedefineProperty => 3
  | cantDelete => 4
  | cantSetPrototype => 5
  | cantPreventExtensions => 6
  | notExtensible => 7
  | getterOnly => 8
  | notObjectReceiver => 9

def name : Refusal → String
  | readOnly => "ReadOnly"
  | cantDefineProperty => "CantDefineProperty"
  | cantRedefineProperty => "CantRedefineProperty"
  | cantDelete => "CantDelete"
  | cantSetPrototype => "CantSetProto"
  | cantPreventExtensions => "CantPreventExtensions"
  | notExtensible => "NotExtensible"
  | getterOnly => "GetterOnly"
  | notObjectReceiver => "NotObjectReceiver"

def ofCode? (c : UInt64) : Option Refusal :=
  all.find? (·.code == c)

def message : Refusal → String
  | readOnly => "is read-only"
  | cantDefineProperty => "can't be defined"
  | cantRedefineProperty => "is non-configurable and can't be redefined"
  | cantDelete => "is non-configurable and can't be deleted"
  | cantSetPrototype => "can't have its prototype set"
  | cantPreventExtensions => "can't be made non-extensible"
  | notExtensible => "can't be added: object is not extensible"
  | getterOnly => "has only a getter"
  | notObjectReceiver => "can't be set on a primitive"

@[simp] theorem ofCode?_code (r : Refusal) : ofCode? r.code = some r := by
  cases r <;> rfl

end Refusal

structure Outcome where
  raw : UInt64
  deriving DecidableEq

namespace Outcome

def ok : Outcome := ⟨0⟩

instance : Inhabited Outcome := ⟨ok⟩

def refused (r : Refusal) : Outcome := ⟨r.code⟩

def isOk (o : Outcome) : Bool := o.raw == 0

def refusal? (o : Outcome) : Option Refusal := Refusal.ofCode? o.raw

def reason (o : Outcome) : String :=
  match o.refusal? with
  | some r => r.message
  | none => "operation was refused"

@[simp] theorem isOk_ok : ok.isOk = true := rfl

@[simp] theorem isOk_refused (r : Refusal) : (refused r).isOk = false := by
  cases r <;> rfl

@[simp] theorem refusal?_refused (r : Refusal) : (refused r).refusal? = some r := by
  simp [refused, refusal?]

@[simp] theorem refusal?_ok : ok.refusal? = none := rfl

end Outcome

end ProxyEngine
