/-!
Doubles as 64-bit words, read field by field in natural-number arithmetic.
Every question the engine asks about a number (is it NaN, is it negative, which
word holds a 32-bit integer exactly) is answered from the word itself, so no
statement about numbers depends on a runtime floating-point operation.
-/

namespace ProxyEngine

structure Binary64 where
  bits : UInt64
  deriving DecidableEq, Inhabited

namespace Binary64

def fraction (x : Binary64) : Nat :=
  x.bits.toNat % 0x10000000000000

def exponentField (x : Binary64) : Nat :=
  x.bits.toNat / 0x10000000000000 % 0x800

def isNegative (x : Binary64) : Bool :=
  0x8000000000000000 ≤ x.bits.toNat

def isSpecial (x : Binary64) : Bool :=
  x.exponentField == 2047

def isNaN (x : Binary64) : Bool :=
  x.isSpecial && x.fraction != 0

def isInfinite (x : Binary64) : Bool :=
  x.isSpecial && x.fraction == 0

/-- A finite double is `significand * 2 ^ scale`, up to its sign. -/
def significand (x : Binary64) : Nat :=
  if x.exponentField = 0 then x.fraction else 0x10000000000000 + x.fraction

def scale (x : Binary64) : Int :=
  (max x.exponentField 1 : Nat) - 1075

theorem fraction_lt (x : Binary64) : x.fraction < 0x10000000000000 :=
  Nat.mod_lt _ (by decide)

theorem significand_lt (x : Binary64) : x.significand < 0x20000000000000 := by
  have := x.fraction_lt
  unfold significand
  split <;> omega

/-- The word of a positive integer below `2 ^ 53`: the leading bit becomes the
exponent and the others fill the fraction from the left. -/
def wordOfNat (m : Nat) : Nat :=
  if m = 0 then 0
  else (1023 + m.log2) * 0x10000000000000 + (m - Nat.pow 2 m.log2) * Nat.pow 2 (52 - m.log2)

def ofInt32 (n : Int32) : Binary64 :=
  ⟨.ofNat (wordOfNat n.toInt.natAbs + if n.toInt < 0 then 0x8000000000000000 else 0)⟩

end Binary64

end ProxyEngine
