-- SUMMARY: The JSON forms of the library's values.
import PixelGraph.Attribute.Map
import PixelGraph.Conversion.Format
import PixelGraph.Graph.Basic
import PixelGraph.Json.Basic

/-!
# JSON forms

An enumeration is written as the name of its case, or as an object from that name to what
the case carries; a record as an object of its fields in order; a map as an object of its
entries. Reading is more generous: a case without contents may be given as an object to
`null`, a record as the list of its fields, and the fields of a record may come in any
order and among others.
-/

namespace PixelGraph

/-- A type whose values have a form in JSON. -/
class JsonForm (α : Type) where
  toJson : α → Json
  ofJson? : Json → Option α

namespace JsonForm

variable {α : Type} [JsonForm α]

/-- The compact text of a value. -/
def write (a : α) : String :=
  String.ofList (toJson a).render

/-- The value that a text stands for. -/
def read? (s : String) : Option α :=
  (Json.parse? s).bind ofJson?

end JsonForm

namespace Json

/-! ## Words -/

def word? : Json → Option UInt64
  | .natural n => if n < UInt64.size then some (.ofNat n) else none
  | _ => none

def text? : Json → Option String
  | .string s => some s
  | _ => none

/-! ## Cases -/

/-- The name of a case and what is given with it. -/
def case? : Json → Option (String × Option Json)
  | .string name => some (name, none)
  | .object [(name, v)] => some (name, some v)
  | _ => none

/-- A case without contents, by its name in a table. -/
def plainCase? {α : Type} (names : SpellingTable α) (j : Json) : Option α :=
  match j.case? with
  | some (name, none) => names.value? name
  | some (name, some .null) => names.value? name
  | _ => none

/-! ## Fields -/

/-- The value of a name that occurs exactly once. -/
def member? (ms : List (String × Json)) (name : String) : Option Json :=
  match ms.filter (·.1 = name) with
  | [(_, v)] => some v
  | _ => none

/-- The fields of a record, in order. -/
def fields? (names : List String) : Json → Option (List Json)
  | .object ms => names.mapM (member? ms)
  | .array vs  => if vs.length = names.length then some vs else none
  | _ => none

end Json

/-! ## Dimensions and shapes -/

instance : JsonForm Dim where
  toJson
    | .static e => .object [("Static", .natural e.toNat)]
    | .dynamic  => .string "Dynamic"
  ofJson? j :=
    match j.case? with
    | some ("Static", some v) => v.word?.map .static
    | some ("Dynamic", none) => some .dynamic
    | some ("Dynamic", some .null) => some .dynamic
    | _ => none

instance : JsonForm Shape where
  toJson s := .object [("dims", .array (s.dims.map JsonForm.toJson))]
  ofJson? j := do
    match ← j.fields? ["dims"] with
    | [.array ds] => return ⟨← ds.mapM JsonForm.ofJson?⟩
    | _ => none

/-! ## Tensors -/

/-- The names of the cases of an element type. -/
def ElementType.caseNames : SpellingTable ElementType :=
  ⟨[("Boolean", .boolean), ("I8", .i8), ("I16", .i16), ("I32", .i32), ("I64", .i64),
    ("U8", .u8), ("U16", .u16), ("U32", .u32), ("U64", .u64),
    ("Bf16", .bf16), ("F16", .f16), ("F32", .f32), ("F64", .f64)]⟩

instance : JsonForm ElementType where
  toJson t := .string (ElementType.caseNames.spelling t)
  ofJson? := Json.plainCase? ElementType.caseNames

instance : JsonForm TensorDesc where
  toJson x := .object
    [("shape", JsonForm.toJson x.shape), ("element_type", JsonForm.toJson x.elementType)]
  ofJson? j := do
    match ← j.fields? ["shape", "element_type"] with
    | [shape, elementType] =>
      return ⟨← JsonForm.ofJson? shape, ← JsonForm.ofJson? elementType⟩
    | _ => none

/-! ## Formats and attributes -/

instance : JsonForm PixelFormat where
  toJson f := .string f.text
  ofJson? := Json.plainCase? PixelFormat.spellings

instance : JsonForm AttributeMap where
  toJson m := .object (m.toList.map fun (name, value) => (name, .string value))
  ofJson?
    | .object ms => do
      let entries ← ms.mapM fun (name, v) => return (name, ← v.text?)
      return .ofList entries
    | _ => none

/-! ## Outputs -/

instance : JsonForm Output where
  toJson o := .object [("node", .natural o.node), ("index", .natural o.index)]
  ofJson? j := do
    match ← j.fields? ["node", "index"] with
    | [node, index] => return ⟨(← node.word?).toNat, (← index.word?).toNat⟩
    | _ => none

end PixelGraph
