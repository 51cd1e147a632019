/-! The byte sink that principals write themselves into; numbers are little-endian. -/

namespace ProxyEngine

structure CloneWriter where
  bytes : List UInt8 := []
  deriving DecidableEq, Inhabited

namespace CloneWriter

def littleEndian : (width n : Nat) → List UInt8
  | 0, _ => []
  | width + 1, n => .ofNat (n % 256) :: littleEndian width (n / 256)

def write (w : CloneWriter) (bytes : List UInt8) : CloneWriter :=
  ⟨w.bytes ++ bytes⟩

def writeUInt32 (w : CloneWriter) (n : UInt32) : CloneWriter :=
  w.write (littleEndian 4 n.toNat)

def writeUInt64 (w : CloneWriter) (n : UInt64) : CloneWriter :=
  w.write (littleEndian 8 n.toNat)

@[simp] theorem bytes_write (w : CloneWriter) (bs : List UInt8) :
    (w.write bs).bytes = w.bytes ++ bs := rfl

@[simp] theorem length_littleEndian (width n : Nat) :
    (littleEndian width n).length = width := by
  induction width generalizing n with
  | zero => rfl
  | succ width ih => simp [littleEndian, ih]

end CloneWriter

end ProxyEngine
