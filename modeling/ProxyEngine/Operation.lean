import ProxyEngine.Context.Update
import ProxyEngine.Flattened

/-!
The operations that every object answers and that a proxy hands to its handler.
An operation is indexed by its shape, which says what kind of answer it has and,
equally, what a trap finds in its out parameters. Answers tell failing apart from refusing: a failed
operation has no result at all, and its exception, if any, is on the context.
-/

namespace ProxyEngine

structure Failed where
  deriving DecidableEq, Inhabited

abbrev Fallible (α : Type) := Except Failed α

/-- The caller's vector after a key-listing operation, which may fail after some keys. -/
structure Listing where
  keys : List PropertyKey
  failed : Bool := false
  deriving DecidableEq, Inhabited

/-- A prototype read through a trap: the handle counts only with the flag set. -/
structure PrototypeOut where
  isOrdinary : Bool := false
  prototype : Option ObjectId := none
  deriving DecidableEq, Inhabited

inductive Shape where
  | descriptor
  | outcome
  /-- Keys are listed into a vector of the caller's, which may hold some already. -/
  | keys (listed : List PropertyKey)
  | ordinaryPrototype
  | prototype
  | flag
  | value
  | text
  | capability
  deriving DecidableEq, Inhabited

namespace Shape

def Answer : Shape → Type
  | descriptor => Fallible (Option Descriptor)
  | outcome => Fallible Outcome
  | keys _ => Listing
  | ordinaryPrototype => Fallible OrdinaryPrototype
  | prototype => Fallible (Option ObjectId)
  | flag => Fallible Bool
  | value => Fallible Value
  | text => String
  | capability => Bool

def Out : Shape → Type
  | descriptor => Flattened Descriptor
  | outcome => Outcome
  | keys _ => List PropertyKey
  | ordinaryPrototype => PrototypeOut
  | prototype => Option ObjectId
  | flag => Bool
  | value => Value
  | text => Option (List UInt8)
  | capability => Bool

/-- What the out parameters hold before a trap runs. -/
def initial : (s : Shape) → s.Out
  | descriptor => (Flattened.absent : Flattened Descriptor)
  | outcome => Outcome.ok
  | keys listed => listed
  | ordinaryPrototype => ({} : PrototypeOut)
  | prototype => (none : Option ObjectId)
  | flag => false
  | value => Value.undefined
  | text => (none : Option (List UInt8))
  | capability => false

def canFail : Shape → Bool
  | text | capability => false
  | _ => true

/-- The answer of an operation that is given up: a failure, or the fixed answer of an
operation that cannot fail. -/
def givenUp : (s : Shape) → s.Answer
  | descriptor | outcome | ordinaryPrototype | prototype | flag | value => Except.error {}
  | keys listed => { keys := listed, failed := true : Listing }
  | text => "Object"
  | capability => false

end Shape

namespace PrototypeOut

def toAnswer (p : PrototypeOut) : OrdinaryPrototype :=
  if p.isOrdinary then .ordinary p.prototype else .notOrdinary

end PrototypeOut

structure Reply (s : Shape) where
  ok : Bool
  out : s.Out

namespace Reply

def orFail {α : Type} (ok : Bool) (a : α) : Fallible α :=
  if ok then .ok a else .error {}

/-- Reads a trap's reply as the operation's answer. A vector stays as the trap left it
when the trap fails; shapes that cannot fail are read without looking at the flag. -/
def toAnswer : {s : Shape} → Reply s → s.Answer
  | .descriptor, ⟨ok, out⟩ => orFail ok (Flattened.toOption out)
  | .outcome, ⟨ok, out⟩ => (orFail ok out : Fallible Outcome)
  | .keys _, ⟨ok, out⟩ => ({ keys := out, failed := !ok } : Listing)
  | .ordinaryPrototype, ⟨ok, out⟩ => orFail ok (PrototypeOut.toAnswer out)
  | .prototype, ⟨ok, out⟩ => (orFail ok out : Fallible (Option ObjectId))
  | .flag, ⟨ok, out⟩ => (orFail ok out : Fallible Bool)
  | .value, ⟨ok, out⟩ => (orFail ok out : Fallible Value)
  | .text, ⟨_, (out : Option (List UInt8))⟩ =>
    ((out.map fun bytes => Utf8.decodeLossy (Utf8.cString bytes)).getD "" : String)
  | .capability, ⟨_, out⟩ => out

end Reply

inductive Op : Shape → Type where
  | getOwnProperty (o : ObjectId) (key : PropertyKey) : Op .descriptor
  | defineProperty (o : ObjectId) (key : PropertyKey) (desc : Descriptor) : Op .outcome
  | ownKeys (o : ObjectId) (listed : List PropertyKey) : Op (.keys listed)
  | delete (o : ObjectId) (key : PropertyKey) : Op .outcome
  | enumerate (o : ObjectId) (listed : List PropertyKey) : Op (.keys listed)
  | getPrototypeIfOrdinary (o : ObjectId) : Op .ordinaryPrototype
  | getPrototype (o : ObjectId) : Op .prototype
  | setPrototype (o : ObjectId) (proto : Option ObjectId) : Op .outcome
  | setImmutablePrototype (o : ObjectId) : Op .flag
  | preventExtensions (o : ObjectId) : Op .outcome
  | isExtensible (o : ObjectId) : Op .flag
  | has (o : ObjectId) (key : PropertyKey) : Op .flag
  | get (o : ObjectId) (receiver : Value) (key : PropertyKey) : Op .value
  | set (o : ObjectId) (key : PropertyKey) (v receiver : Value) : Op .outcome
  | call (o : ObjectId) (this : Value) (args : List Value) : Op .value
  | construct (o : ObjectId) (args : List Value) (newTarget : Value) : Op .value
  | hasOwn (o : ObjectId) (key : PropertyKey) : Op .flag
  | ownEnumerableKeys (o : ObjectId) (listed : List PropertyKey) : Op (.keys listed)
  | className (o : ObjectId) : Op .text
  | functionToString (o : ObjectId) (isToString : Bool) : Op .value
  | unbox (o : ObjectId) : Op .value
  | isCallable (o : ObjectId) : Op .capability
  | isConstructor (o : ObjectId) : Op .capability

namespace Op

variable {s : Shape}

def subject : Op s → ObjectId
  | getOwnProperty o _ => o
  | defineProperty o _ _ => o
  | ownKeys o _ => o
  | delete o _ => o
  | enumerate o _ => o
  | getPrototypeIfOrdinary o => o
  | getPrototype o => o
  | setPrototype o _ => o
  | setImmutablePrototype o => o
  | preventExtensions o => o
  | isExtensible o => o
  | has o _ => o
  | get o _ _ => o
  | set o _ _ _ => o
  | call o _ _ => o
  | construct o _ _ => o
  | hasOwn o _ => o
  | ownEnumerableKeys o _ => o
  | className o => o
  | functionToString o _ => o
  | unbox o => o
  | isCallable o => o
  | isConstructor o => o

def slot : Op s → Slot
  | getOwnProperty .. => .getOwnProperty
  | defineProperty .. => .defineProperty
  | ownKeys .. => .ownKeys
  | delete .. => .delete
  | enumerate .. => .enumerate
  | getPrototypeIfOrdinary _ => .getPrototypeIfOrdinary
  | getPrototype _ => .getPrototype
  | setPrototype .. => .setPrototype
  | setImmutablePrototype _ => .setImmutablePrototype
  | preventExtensions _ => .preventExtensions
  | isExtensible _ => .isExtensible
  | has .. => .has
  | get .. => .get
  | set .. => .set
  | call .. => .call
  | construct .. => .construct
  | hasOwn .. => .hasOwn
  | ownEnumerableKeys .. => .ownEnumerableKeys
  | className _ => .className
  | functionToString .. => .functionToString
  | unbox _ => .unbox
  | isCallable _ => .isCallable
  | isConstructor _ => .isConstructor

/-- The same operation on another object. A construct aimed at the old object itself
is aimed at the new one. -/
def redirect (t : ObjectId) : Op s → Op s
  | getOwnProperty _ k => getOwnProperty t k
  | defineProperty _ k d => defineProperty t k d
  | ownKeys _ listed => ownKeys t listed
  | delete _ k => delete t k
  | enumerate _ listed => enumerate t listed
  | getPrototypeIfOrdinary _ => getPrototypeIfOrdinary t
  | getPrototype _ => getPrototype t
  | setPrototype _ p => setPrototype t p
  | setImmutablePrototype _ => setImmutablePrototype t
  | preventExtensions _ => preventExtensions t
  | isExtensible _ => isExtensible t
  | has _ k => has t k
  | get _ r k => get t r k
  | set _ k v r => set t k v r
  | call _ this as => call t this as
  | construct o as n => construct t as (if n.asObject? = some o then .object t else n)
  | hasOwn _ k => hasOwn t k
  | ownEnumerableKeys _ listed => ownEnumerableKeys t listed
  | className _ => className t
  | functionToString _ b => functionToString t b
  | unbox _ => unbox t
  | isCallable _ => isCallable t
  | isConstructor _ => isConstructor t

@[simp] theorem subject_redirect (t : ObjectId) (op : Op s) : (op.redirect t).subject = t := by
  cases op <;> rfl

@[simp] theorem slot_redirect (t : ObjectId) (op : Op s) : (op.redirect t).slot = op.slot := by
  cases op <;> rfl

end Op

end ProxyEngine
