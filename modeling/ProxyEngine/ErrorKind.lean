/-! The built-in errors that the engine reports by itself. -/

namespace ProxyEngine

inductive ErrorKind where
  | error
  | typeError
  | rangeError
  | referenceError
  | internalError
  deriving DecidableEq, Inhabited

namespace ErrorKind

def all : List ErrorKind :=
  [error, typeError, rangeError, referenceError, internalError]

def name : ErrorKind → String
  | error => "Error"
  | typeError => "TypeError"
  | rangeError => "RangeError"
  | referenceError => "ReferenceError"
  | internalError => "InternalError"

def ofName? (s : String) : Option ErrorKind :=
  all.find? (·.name == s)

@[simp] theorem ofName?_name (k : ErrorKind) : ofName? k.name = some k := by
  cases k <;> decide

end ErrorKind

end ProxyEngine
