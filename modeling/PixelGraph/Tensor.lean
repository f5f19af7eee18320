-- SUMMARY: Element types and the static description of a tensor.
import PixelGraph.Shape.Basic

/-!
# Tensors

A tensor on an edge of the graph is described by its shape and the type of its elements.
-/

namespace PixelGraph

inductive ElementType
  | boolean
  | i8 | i16 | i32 | i64
  | u8 | u16 | u32 | u64
  | bf16 | f16 | f32 | f64
deriving DecidableEq, Repr, Inhabited

namespace ElementType

/-- Floating point types hold reals. -/
def isReal : ElementType → Bool
  | .bf16 | .f16 | .f32 | .f64 => true
  | _ => false

def name : ElementType → String
  | .boolean => "boolean"
  | .i8      => "i8"
  | .i16     => "i16"
  | .i32     => "i32"
  | .i64     => "i64"
  | .u8      => "u8"
  | .u16     => "u16"
  | .u32     => "u32"
  | .u64     => "u64"
  | .bf16    => "bf16"
  | .f16     => "f16"
  | .f32     => "f32"
  | .f64     => "f64"

instance : ToString ElementType := ⟨name⟩

/-- Every element type, in declaration order. -/
def all : List ElementType :=
  [.boolean, .i8, .i16, .i32, .i64, .u8, .u16, .u32, .u64, .bf16, .f16, .f32, .f64]

/-- The element type of a name. -/
def ofName? (name : String) : Option ElementType :=
  all.find? (·.name == name)

@[simp] theorem ofName?_name (t : ElementType) : ofName? t.name = some t := by
  cases t <;> rfl

end ElementType

/-- The static description of a tensor on an edge of the graph. -/
structure TensorDesc where
  shape : Shape
  elementType : ElementType
deriving DecidableEq, Repr, Inhabited

namespace TensorDesc

def rank (x : TensorDesc) : Nat :=
  x.shape.rank

def dim (x : TensorDesc) (axis : Word) : Except ShapeError Dim :=
  x.shape.dim axis

/-- The element type followed by the shape. -/
def text (x : TensorDesc) : String :=
  x.elementType.name ++ x.shape.text

instance : ToString TensorDesc := ⟨text⟩

end TensorDesc

end PixelGraph
