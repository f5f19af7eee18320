-- SUMMARY: The reasons for which a conversion rejects its inputs.
import PixelGraph.Tensor

/-!
# Conversion errors

Each error carries the values of the input that caused it. Inputs are counted from zero.
-/

namespace PixelGraph

/-- The two axes along which the UV plane has half the extent of the Y plane. -/
inductive PlaneAxis
  | height
  | width
deriving DecidableEq, Repr

def PlaneAxis.name : PlaneAxis → String
  | .height => "height"
  | .width  => "width"

/-- A dimension that does not follow from the others. -/
inductive DerivedDimension
  /-- A packed image of this height has no height as NV12. -/
  | packedHeight (height : Dim)
  /-- The extent of the UV plane is not half that of the Y plane. -/
  | planeHalf (axis : PlaneAxis) (uv y : UInt64)
deriving DecidableEq, Repr

def DerivedDimension.message : DerivedDimension → String
  | .packedHeight height =>
    s!"image height {height.text} has no exact 1.5x NV12 height that fits in usize"
  | .planeHalf axis uv y =>
    s!"UV plane {axis.name} {uv.toNat} must be half of Y plane {axis.name} {y.toNat}"

/-- The text by what stands around the two extents. -/
theorem DerivedDimension.message_planeHalf (axis : PlaneAxis) (uv y : UInt64) :
    (planeHalf axis uv y).message =
      ("UV plane " ++ axis.name ++ " ") ++ toString uv.toNat ++
        (" must be half of Y plane " ++ axis.name ++ " ") ++ toString y.toNat := by
  rw [← String.append_assoc, ← String.append_assoc]
  rfl

inductive ConversionError
  | arity (count : Nat)
  | rank (input : Nat) (seen : Shape)
  | unsupportedType (input : Nat) (elementType : ElementType)
  | typeMismatch (y uv : ElementType)
  | channel (input : Nat) (expected : UInt64) (got : Dim)
  | derivedDimension (cause : DerivedDimension)
  | batchMismatch (y uv : Dim)
  | shape (e : ShapeError)
deriving DecidableEq, Repr

def ConversionError.message : ConversionError → String
  | .arity count =>
    s!"color conversion shall have one or two input nodes, but {count} were given"
  | .rank input seen =>
    s!"input {input} must have rank 4 (NHWC), but has shape {seen.text}"
  | .unsupportedType input elementType =>
    s!"input {input} has element type {elementType.name}, expected u8 or a floating point type"
  | .typeMismatch y uv =>
    s!"element types of Y and UV inputs do not match: {y.name} vs {uv.name}"
  | .channel input expected got =>
    s!"input {input} channel dimension must be {expected.toNat}, but is {got.text}"
  | .derivedDimension cause => s!"invalid NV12 dimension: {cause.message}"
  | .batchMismatch y uv =>
    s!"batch dimensions of Y and UV inputs do not match: {y.text} vs {uv.text}"
  | .shape e => e.message

end PixelGraph
