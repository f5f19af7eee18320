-- SUMMARY: Partially known shapes: building one from extents, reading and replacing a dimension.
import PixelGraph.Dim
import PixelGraph.Shape.Axis

/-!
# Shapes

A shape is a list of dimensions. Its rank is always known, its dimensions may be open.
-/

namespace PixelGraph

/-! ## Extents -/

/-- What a dimension can be given as. -/
inductive Extent
  /-- A machine integer; a signed `-1` leaves the dimension open. -/
  | word (w : Word)
  | dim (d : Dim)
deriving DecidableEq, Repr

/-- The dimension that a signed extent stands for. -/
def signedExtent (e : Int64) : Except ShapeError Dim :=
  if e = -1 then .ok .dynamic
  else if 0 ≤ e then .ok (.static e.toUInt64)
  else .error (.invalidExtent e)

/-- The dimension that an extent stands for. -/
def Extent.toDim : Extent → Except ShapeError Dim
  | .word (.int32 v)  => signedExtent v.toInt64
  | .word (.int64 v)  => signedExtent v
  | .word (.uint32 v) => .ok (.static v.toUInt64)
  | .word (.uint64 v) => .ok (.static v)
  | .dim d            => .ok d

/-! ## Shapes -/

structure Shape where
  dims : List Dim
deriving DecidableEq, Repr, Inhabited

namespace Shape

/-- The shape with the given extents. The first extent that is no dimension fails. -/
def ofExtents (extents : List Extent) : Except ShapeError Shape := do
  return ⟨← extents.mapM Extent.toDim⟩

def rank (s : Shape) : Nat :=
  s.dims.length

/-- The dimension at an axis. -/
def dim (s : Shape) (axis : Word) : Except ShapeError Dim :=
  match axis.resolve s.rank with
  | .ok i    => .ok (s.dims.get i)
  | .error e => .error e

/-- The shape with the dimension at an axis replaced. -/
def withDim (s : Shape) (axis : Word) (d : Dim) : Except ShapeError Shape :=
  match axis.resolve s.rank with
  | .ok i    => .ok ⟨s.dims.set i d⟩
  | .error e => .error e

@[simp] theorem rank_mk (ds : List Dim) : (Shape.mk ds).rank = ds.length := rfl

theorem rank_of_withDim_eq_ok {s s' : Shape} {axis : Word} {d : Dim}
    (h : s.withDim axis d = .ok s') : s'.rank = s.rank := by
  unfold withDim at h
  split at h
  · cases h
    exact List.length_set
  · cases h

/-- Dimensions in brackets. -/
def text (s : Shape) : String :=
  "[" ++ Dim.listText s.dims ++ "]"

instance : ToString Shape := ⟨text⟩

end Shape

end PixelGraph
