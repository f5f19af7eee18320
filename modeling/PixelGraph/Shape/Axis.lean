-- SUMMARY: What can be wrong with an extent or an axis, and how an axis names a position.
import PixelGraph.Word

/-!
# Axes

An axis names a position among the dimensions of a shape. Axes of a signed width may
count from the end: `-1` is the last position. The arithmetic on axes and the numbers
reported in errors are signed 64-bit words.
-/

namespace PixelGraph

inductive ShapeError
  /-- An extent below `-1`. -/
  | invalidExtent (extent : Int64)
  /-- An axis outside the range from `low` to `high`, both included. -/
  | outOfBounds (index low high : Int64)
  /-- There is no position to name. -/
  | invalidBound
deriving DecidableEq, Repr

def ShapeError.message : ShapeError → String
  | .invalidExtent extent =>
    s!"invalid shape extent {extent.toInt}, size should not be negative or set to -1 for a dynamic dimension"
  | .outOfBounds index low high =>
    s!"index out of range, expected index in range of {low.toInt}..{high.toInt}, but {index.toInt} is given."
  | .invalidBound => "invalid index bound"

/-! ## Counting positions in signed words -/

def positionCount (bound : Nat) : Int64 :=
  .ofNat bound

/-- An axis below zero, counted from the start instead of the end. -/
def fromStart (axis : Int64) (bound : Nat) : Int64 :=
  axis + positionCount bound

def lowestAxis (bound : Nat) : Int64 :=
  -positionCount bound

def highestAxis (bound : Nat) : Int64 :=
  .ofNat (bound - 1)

section

variable {axis : Int64} {bound : Nat}

theorem toInt_positionCount (hbound : bound < Word.signedSize) :
    (positionCount bound).toInt = bound :=
  Int64.toInt_ofNat_of_lt hbound

/-- The sum with the number of positions does not overflow. -/
theorem toInt_fromStart (haxis : axis < 0) (hbound : bound < Word.signedSize) :
    (fromStart axis bound).toInt = axis.toInt + bound := by
  have hsize : Word.signedSize = 0x8000000000000000 := rfl
  have hlow := axis.le_toInt
  have hneg : axis.toInt < 0 := Int64.lt_iff_toInt_lt.1 haxis
  rw [fromStart, Int64.toInt_add, toInt_positionCount hbound, Int.bmod_eq_of_le] <;> omega

theorem toInt_lowestAxis (hbound : bound < Word.signedSize) :
    (lowestAxis bound).toInt = -bound :=
  Int64.toInt_neg_ofNat_of_le (Nat.le_of_lt hbound)

theorem toInt_highestAxis (hpos : 0 < bound) (hbound : bound < Word.signedSize) :
    (highestAxis bound).toInt = bound - 1 := by
  have hhigh : bound - 1 < Word.signedSize := Nat.lt_of_le_of_lt (Nat.sub_le bound 1) hbound
  rw [highestAxis, Int64.toInt_ofNat_of_lt hhigh]
  omega

end

/-! ## Positions -/

/-- The position that a signed axis names among `bound` positions. -/
def signedPosition? (axis : Int64) (bound : Nat) : Option (Fin bound) :=
  let index := if 0 ≤ axis then axis else fromStart axis bound
  if h : 0 ≤ index ∧ index.toNatClampNeg < bound then some ⟨index.toNatClampNeg, h.2⟩ else none

/-- The position that an unsigned axis names among `bound` positions. -/
def unsignedPosition? (axis : Nat) (bound : Nat) : Option (Fin bound) :=
  if h : axis < bound then some ⟨axis, h⟩ else none

theorem unsignedPosition?_eq_some_iff {axis bound : Nat} {i : Fin bound} :
    unsignedPosition? axis bound = some i ↔ i.val = axis := by
  unfold unsignedPosition?
  split
  case isTrue h => simp [Fin.ext_iff, eq_comm]
  case isFalse h => simpa using fun hi : i.val = axis => h (hi ▸ i.isLt)

theorem signedPosition?_eq_some_iff {axis : Int64} {bound : Nat} (hbound : bound < Word.signedSize)
    {i : Fin bound} :
    signedPosition? axis bound = some i ↔
      (i.val : Int) = axis.toInt ∨ (i.val : Int) = axis.toInt + bound := by
  have hi := i.isLt
  have hiff : ∀ index : Int64,
      (if h : 0 ≤ index ∧ index.toNatClampNeg < bound then
        some (⟨index.toNatClampNeg, h.2⟩ : Fin bound) else none) = some i ↔
      (i.val : Int) = index.toInt := by
    intro index
    have hnonneg : 0 ≤ index ↔ 0 ≤ index.toInt := Int64.le_iff_toInt_le
    have hnat : index.toInt.toNat = index.toNatClampNeg := index.toNat_toInt
    split
    case isTrue h =>
      have := hnonneg.1 h.1
      simp only [Option.some.injEq, Fin.ext_iff]
      omega
    case isFalse h =>
      simp only [reduceCtorEq, false_iff]
      intro hindex
      exact h ⟨hnonneg.2 (by omega), by omega⟩
  simp only [signedPosition?, hiff]
  split
  case isTrue h =>
    have : 0 ≤ axis.toInt := Int64.le_iff_toInt_le.1 h
    omega
  case isFalse h =>
    have hneg : axis < 0 := Int64.not_le.1 h
    have : axis.toInt < 0 := Int64.lt_iff_toInt_lt.1 hneg
    rw [toInt_fromStart hneg hbound]
    omega

namespace Word

/-- The position that an axis names among `bound` positions. -/
def position? (axis : Word) (bound : Nat) : Option (Fin bound) :=
  match axis with
  | .int32 v  => signedPosition? v.toInt64 bound
  | .int64 v  => signedPosition? v bound
  | .uint32 v => unsignedPosition? v.toNat bound
  | .uint64 v => unsignedPosition? v.toNat bound

/-- A position is named by its number and by what is left to the end. -/
theorem position?_eq_some_iff {axis : Word} {bound : Nat} (hbound : bound < Word.signedSize)
    {i : Fin bound} :
    axis.position? bound = some i ↔
      (i.val : Int) = axis.toInt ∨ (i.val : Int) = axis.toInt + bound := by
  have hi := i.isLt
  cases axis with
  | int32 v =>
    rw [position?, signedPosition?_eq_some_iff hbound, v.toInt_toInt64]
    rfl
  | int64 v => exact signedPosition?_eq_some_iff hbound
  | uint32 v =>
    rw [position?, unsignedPosition?_eq_some_iff, toInt_uint32]
    omega
  | uint64 v =>
    rw [position?, unsignedPosition?_eq_some_iff, toInt_uint64]
    omega

/-- The position of an axis, or the range it had to be in. -/
def resolve (axis : Word) (bound : Nat) : Except ShapeError (Fin bound) :=
  if bound = 0 then .error .invalidBound
  else match axis.position? bound with
    | some i => .ok i
    | none   => .error (.outOfBounds axis.toInt64 (lowestAxis bound) (highestAxis bound))

@[simp] theorem resolve_zero (axis : Word) : axis.resolve 0 = .error .invalidBound := rfl

end Word

end PixelGraph
