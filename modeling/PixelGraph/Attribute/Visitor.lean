-- SUMMARY: Walking the attributes of a node: the reader that loads them and the writer that collects them.
import PixelGraph.Attribute.Map
import PixelGraph.Attribute.Spelling

/-!
# Attribute visitors

A node shows its attributes to a visitor one by one, each with its name, its spellings and
its value. The visitor gives back the value, possibly another, and says whether it accepted
the attribute. Shapes are never shown.
-/

namespace PixelGraph

inductive AttributeError
  | missing (name : String)
  | invalidValue (name value : String)
  /-- A valid value that the node cannot take. -/
  | unexpected (node name value : String)
  | unsupportedType (typeName : String)
deriving DecidableEq, Repr

def AttributeError.message : AttributeError → String
  | .missing name => s!"attribute '{name}' is missing"
  | .invalidValue name value => s!"'{value}' is not a valid value for attribute '{name}'"
  | .unexpected node name value => s!"{node} does not accept {name}={value}"
  | .unsupportedType typeName => s!"node type {typeName} cannot be built from attributes"

/-! ## Visits -/

/-- What a visit leaves behind: the verdict, the value and the visitor. -/
structure Visit (V α : Type) where
  accepted : Bool
  value : α
  visitor : V
deriving Repr

def Visit.map {V α β : Type} (f : α → β) (r : Visit V α) : Visit V β :=
  ⟨r.accepted, f r.value, r.visitor⟩

class AttributeVisitor (V : Type) where
  visit {α : Type} [BEq α] (visitor : V) (name : String) (table : SpellingTable α)
    (value : α) : Visit V α

/-! ## Reading -/

/-- Loads values from a map and keeps the first failure. -/
structure AttributeReader where
  attrs : AttributeMap
  error : Option AttributeError
deriving DecidableEq, Repr

namespace AttributeReader

def ofMap (attrs : AttributeMap) : AttributeReader :=
  ⟨attrs, none⟩

def fail (r : AttributeReader) (e : AttributeError) : AttributeReader :=
  match r.error with
  | some _ => r
  | none   => ⟨r.attrs, some e⟩

/-- The first failure of all visits so far. -/
def finish (r : AttributeReader) : Except AttributeError Unit :=
  match r.error with
  | some e => .error e
  | none   => .ok ()

/-- A value is loaded by its spelling. Without one it stays as it was. -/
def visit {α : Type} (r : AttributeReader) (name : String) (table : SpellingTable α)
    (value : α) : Visit AttributeReader α :=
  match r.attrs.get? name with
  | none => ⟨false, value, r.fail (.missing name)⟩
  | some text =>
    match table.value? text with
    | none => ⟨false, value, r.fail (.invalidValue name text)⟩
    | some loaded => ⟨true, loaded, r⟩

instance : AttributeVisitor AttributeReader := ⟨visit⟩

@[simp] theorem fail_attrs (r : AttributeReader) (e : AttributeError) :
    (r.fail e).attrs = r.attrs := by
  unfold fail; split <;> rfl

@[simp] theorem finish_ofMap (attrs : AttributeMap) : (ofMap attrs).finish = .ok () := rfl

end AttributeReader

/-! ## Writing -/

/-- Collects the spellings of the values it is shown. -/
structure AttributeWriter where
  attrs : AttributeMap
deriving DecidableEq, Repr

namespace AttributeWriter

def empty : AttributeWriter :=
  ⟨AttributeMap.empty⟩

def visit {α : Type} [BEq α] (w : AttributeWriter) (name : String)
    (table : SpellingTable α) (value : α) : Visit AttributeWriter α :=
  ⟨true, value, ⟨w.attrs.insert name (table.spelling value)⟩⟩

instance : AttributeVisitor AttributeWriter := ⟨visit⟩

end AttributeWriter

end PixelGraph
