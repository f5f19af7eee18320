-- SUMMARY: Machine integers of the widths in which extents and axes are given.

/-!
# Machine integers

Extents and axes are given as 32- or 64-bit integers, signed or unsigned. A machine
integer is read in two ways: as the mathematical integer it stands for, and as the
signed 64-bit word that extending it gives. The two readings agree except for an
unsigned 64-bit integer of `2 ^ 63` or more, which wraps.
-/

namespace PixelGraph

inductive Word
  | int32 (v : Int32)
  | int64 (v : Int64)
  | uint32 (v : UInt32)
  | uint64 (v : UInt64)
deriving DecidableEq, Repr

namespace Word

/-- The integer a machine integer stands for. -/
def toInt : Word → Int
  | .int32 v  => v.toInt
  | .int64 v  => v.toInt
  | .uint32 v => v.toNat
  | .uint64 v => v.toNat

/-- The 64-bit word that sign or zero extension gives, read as signed. -/
def toInt64 : Word → Int64
  | .int32 v  => v.toInt64
  | .int64 v  => v
  | .uint32 v => v.toUInt64.toInt64
  | .uint64 v => v.toInt64

/-- The number of signed 64-bit words that are not negative. -/
abbrev signedSize : Nat := 0x8000000000000000

@[simp] theorem toInt_int32 (v : Int32) : (Word.int32 v).toInt = v.toInt := rfl
@[simp] theorem toInt_int64 (v : Int64) : (Word.int64 v).toInt = v.toInt := rfl
@[simp] theorem toInt_uint32 (v : UInt32) : (Word.uint32 v).toInt = v.toNat := rfl
@[simp] theorem toInt_uint64 (v : UInt64) : (Word.uint64 v).toInt = v.toNat := rfl

theorem toInt_toInt64_uint64 {v : UInt64} (h : v.toNat < signedSize) : v.toInt64.toInt = v.toNat := by
  change v.toBitVec.toInt = _
  rw [BitVec.toInt_eq_toNat_of_lt]
  · rfl
  · change 2 * v.toNat < 2 * signedSize
    omega

/-- The two readings agree on what a signed word can hold. -/
theorem toInt_toInt64 (w : Word) (h : w.toInt < signedSize) : w.toInt64.toInt = w.toInt := by
  cases w with
  | int32 v  => exact v.toInt_toInt64
  | int64 v  => rfl
  | uint32 v =>
    have hv := v.toNat_lt
    have hsize : signedSize = 0x8000000000000000 := rfl
    rw [toInt_uint32, toInt64, toInt_toInt64_uint64] <;> rw [UInt32.toNat_toUInt64]
    omega
  | uint64 v =>
    rw [toInt_uint64] at h ⊢
    exact toInt_toInt64_uint64 (by omega)

end Word

end PixelGraph
