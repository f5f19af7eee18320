-- SUMMARY: What a conversion from RGB accepts, and the tensors it produces.
import PixelGraph.Conversion.Error
import PixelGraph.Conversion.Format

/-!
# Inference

Images are given in NHWC order. One input is a packed image `[N, H, W, 3]` and gives the
single plane `[N, 1.5 * H, W, 1]`. Two inputs are a Y plane `[N, H, W, 1]` and a UV plane
`[N, H / 2, W / 2, 2]` and are given back as they are. A check that meets an open
dimension passes.
-/

namespace PixelGraph

/-! ## Axes -/

namespace Nhwc

def batch : Word := .uint64 0
def height : Word := .uint64 1
def width : Word := .uint64 2
def channel : Word := .uint64 3

end Nhwc

def PlaneAxis.axis : PlaneAxis → Word
  | .height => Nhwc.height
  | .width  => Nhwc.width

namespace TensorDesc

/-- A dimension of an image. -/
def imageDim (x : TensorDesc) (axis : Word) : Except ConversionError Dim :=
  (x.dim axis).mapError .shape

@[simp] theorem imageDim_batch (n h w c : Dim) (t : ElementType) :
    (TensorDesc.mk ⟨[n, h, w, c]⟩ t).imageDim Nhwc.batch = .ok n := rfl

@[simp] theorem imageDim_height (n h w c : Dim) (t : ElementType) :
    (TensorDesc.mk ⟨[n, h, w, c]⟩ t).imageDim Nhwc.height = .ok h := rfl

@[simp] theorem imageDim_width (n h w c : Dim) (t : ElementType) :
    (TensorDesc.mk ⟨[n, h, w, c]⟩ t).imageDim Nhwc.width = .ok w := rfl

@[simp] theorem imageDim_channel (n h w c : Dim) (t : ElementType) :
    (TensorDesc.mk ⟨[n, h, w, c]⟩ t).imageDim Nhwc.channel = .ok c := rfl

end TensorDesc

/-! ## Checks -/

namespace RgbConversion

/-- Whether a conversion works on elements of a type. All formats take the same types. -/
def supports (_ : RgbConversion) (t : ElementType) : Bool :=
  t == .u8 || t.isReal

def checkRank (input : Nat) (x : TensorDesc) : Except ConversionError Unit :=
  if x.rank = 4 then .ok () else .error (.rank input x.shape)

def checkType (c : RgbConversion) (input : Nat) (x : TensorDesc) : Except ConversionError Unit :=
  if c.supports x.elementType then .ok () else .error (.unsupportedType input x.elementType)

def checkChannels (input : Nat) (expected : UInt64) (x : TensorDesc) :
    Except ConversionError Unit := do
  let got ← x.imageDim Nhwc.channel
  if got.compatible expected then .ok () else .error (.channel input expected got)

def checkBatch (y uv : TensorDesc) : Except ConversionError Unit := do
  let yBatch ← y.imageDim Nhwc.batch
  let uvBatch ← uv.imageDim Nhwc.batch
  if yBatch.isStatic && uvBatch.isStatic && yBatch != uvBatch then
    .error (.batchMismatch yBatch uvBatch)
  else .ok ()

/-- Known extents of the two planes have to be in the proportion of two to one. -/
def checkHalf (axis : PlaneAxis) (y uv : TensorDesc) : Except ConversionError Unit := do
  match ← y.imageDim axis.axis, ← uv.imageDim axis.axis with
  | .static e, .static e' =>
    if (Dim.static e).half.toOption = some (.static e') then .ok ()
    else .error (.derivedDimension (.planeHalf axis e' e))
  | _, _ => .ok ()

/-- Every input is an image of a supported type. Ranks come before types. -/
def checkImages (c : RgbConversion) (inputs : List TensorDesc) : Except ConversionError Unit := do
  inputs.zipIdx.forM fun (x, i) => checkRank i x
  inputs.zipIdx.forM fun (x, i) => c.checkType i x

/-! ## The two forms -/

/-- The height of the NV12 plane of an image: half as much again. -/
def packedHeight (height : Dim) : Except ConversionError Dim :=
  (height.scale 3 2).mapError fun _ => .derivedDimension (.packedHeight height)

def inferPacked (rgb : TensorDesc) : Except ConversionError TensorDesc := do
  checkChannels 0 3 rgb
  let height ← packedHeight (← rgb.imageDim Nhwc.height)
  let tall ← (rgb.shape.withDim Nhwc.height height).mapError .shape
  let plane ← (tall.withDim Nhwc.channel (.static 1)).mapError .shape
  return ⟨plane, rgb.elementType⟩

def inferPlanes (y uv : TensorDesc) : Except ConversionError (List TensorDesc) := do
  unless y.elementType = uv.elementType do
    throw (.typeMismatch y.elementType uv.elementType)
  checkChannels 0 1 y
  checkChannels 1 2 uv
  checkBatch y uv
  checkHalf .height y uv
  checkHalf .width y uv
  return [y, uv]

/-- The outputs of a conversion of the given inputs. -/
def infer (c : RgbConversion) (inputs : List TensorDesc) :
    Except ConversionError (List TensorDesc) :=
  match inputs with
  | [rgb]   => do
    c.checkImages [rgb]
    return [← inferPacked rgb]
  | [y, uv] => do
    c.checkImages [y, uv]
    inferPlanes y uv
  | _ => .error (.arity inputs.length)

end RgbConversion

end PixelGraph
