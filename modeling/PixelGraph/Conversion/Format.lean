-- SUMMARY: The pixel formats that RGB images are converted to, and a conversion's attributes.
import PixelGraph.Attribute.Visitor

/-!
# Pixel formats

An RGB image is converted to a format with a full Y plane of brightness and a UV plane of
two interleaved color channels at half the height and width. The formats differ in the
order of the two channels.
-/

namespace PixelGraph

inductive PixelFormat
  | nv12
  | nv21
deriving DecidableEq, Repr, Inhabited

namespace PixelFormat

def spellings : SpellingTable PixelFormat :=
  ⟨[("RGB_TO_NV12", .nv12), ("RGB_TO_NV21", .nv21)]⟩

def text (f : PixelFormat) : String :=
  spellings.spelling f

instance : ToString PixelFormat := ⟨text⟩

@[simp] theorem value?_text (f : PixelFormat) : spellings.value? f.text = some f := by
  cases f <;> decide

end PixelFormat

/-- A conversion from RGB to a pixel format. -/
structure RgbConversion where
  format : PixelFormat := .nv12
deriving DecidableEq, Repr, Inhabited

namespace RgbConversion

/-- The name of the one attribute of a conversion. -/
def formatName : String := "format"

def visitAttributes {V : Type} [AttributeVisitor V] (c : RgbConversion) (visitor : V) :
    Visit V RgbConversion :=
  (AttributeVisitor.visit visitor formatName PixelFormat.spellings c.format).map .mk

end RgbConversion

end PixelGraph
