-- SUMMARY: Values are read back from the JSON text that was written for them.
import PixelGraph.Json.Form
import PixelGraph.Proofs.Json.RoundTrip

/-!
# Reading written values

A form is lawful if a value can be read from its own JSON value. The text in between loses
nothing, so that a value of a type with a lawful form is read back from its text. Forms are
shown lawful type by type, from the parts of a record to the record.
-/

namespace PixelGraph

/-- A form in JSON from which every value can be read back. -/
class LawfulJsonForm (α : Type) [JsonForm α] : Prop where
  ofJson?_toJson : ∀ a : α, JsonForm.ofJson? (JsonForm.toJson a) = some a

namespace JsonForm

variable {α : Type} [JsonForm α]

/-- Text carries any JSON value unchanged. -/
theorem read?_write_eq (a : α) : (read? (write a) : Option α) = ofJson? (toJson a) := by
  unfold read? write
  rw [Json.parse?_render]
  rfl

variable [LawfulJsonForm α]

theorem read?_write (a : α) : read? (write a) = some a :=
  (read?_write_eq a).trans (LawfulJsonForm.ofJson?_toJson a)

theorem write_inj {a b : α} : write a = write b ↔ a = b := by
  constructor
  · intro h
    have hread : some a = some b := by rw [← read?_write a, ← read?_write b, h]
    exact Option.some.inj hread
  · exact congrArg write

end JsonForm

namespace Json

theorem word?_toNat (w : UInt64) : word? (.natural w.toNat) = some w := by
  rw [word?, if_pos w.toNat_lt_size, UInt64.ofNat_toNat]

end Json

/-! ## Dimensions and shapes -/

instance : LawfulJsonForm Dim where
  ofJson?_toJson d := by
    cases d with
    | static e =>
      change (Json.word? (.natural e.toNat)).map Dim.static = _
      rw [Json.word?_toNat]
      rfl
    | dynamic => rfl

instance : LawfulJsonForm Shape where
  ofJson?_toJson s := by
    change ((s.dims.map JsonForm.toJson).mapM JsonForm.ofJson? >>= fun ds => some (Shape.mk ds)) = _
    rw [mapM_map_of_forall_eq_some LawfulJsonForm.ofJson?_toJson]
    rfl

/-! ## Tensors -/

instance : LawfulJsonForm ElementType where
  ofJson?_toJson t := by cases t <;> rfl

instance : LawfulJsonForm TensorDesc where
  ofJson?_toJson x := by
    change (JsonForm.ofJson? (JsonForm.toJson x.shape) >>= fun shape =>
      JsonForm.ofJson? (JsonForm.toJson x.elementType) >>= fun elementType =>
        some (TensorDesc.mk shape elementType)) = _
    rw [LawfulJsonForm.ofJson?_toJson x.shape, LawfulJsonForm.ofJson?_toJson x.elementType]
    rfl

/-! ## Formats and attributes -/

instance : LawfulJsonForm PixelFormat where
  ofJson?_toJson f := by cases f <;> rfl

/-- The entries come back in order and under different names, so that no one of them replaces
another. -/
instance : LawfulJsonForm AttributeMap where
  ofJson?_toJson m := by
    change (List.mapM _ (m.toList.map _) >>= fun entries => some (AttributeMap.ofList entries)) = _
    rw [mapM_map_of_forall_eq_some]
    · exact congrArg some m.ofList_toList
    · exact fun _ => rfl

/-! ## Outputs -/

theorem Output.ofJson?_toJson (node index : UInt64) :
    JsonForm.ofJson? (JsonForm.toJson (Output.mk node.toNat index.toNat)) =
      some (Output.mk node.toNat index.toNat) := by
  change (Json.word? (.natural node.toNat) >>= fun node =>
    Json.word? (.natural index.toNat) >>= fun index =>
      some (Output.mk node.toNat index.toNat)) = _
  rw [Json.word?_toNat, Json.word?_toNat]
  rfl

/-! ## All values -/

/-- Each type that has a form reads back what it writes: shapes of any rank, attributes under
any names, and outputs whose node and index are words. -/
theorem JsonForm.read?_write_values :
    (∀ d : Dim, read? (write d) = some d) ∧
    (∀ t : ElementType, read? (write t) = some t) ∧
    (∀ f : PixelFormat, read? (write f) = some f) ∧
    (∀ s : Shape, read? (write s) = some s) ∧
    (∀ x : TensorDesc, read? (write x) = some x) ∧
    (∀ node index : UInt64,
      read? (write (Output.mk node.toNat index.toNat)) =
        some (Output.mk node.toNat index.toNat)) ∧
    (∀ m : AttributeMap, read? (write m) = some m) := by
  refine ⟨read?_write, read?_write, read?_write, read?_write, read?_write, ?_, read?_write⟩
  intro node index
  rw [read?_write_eq]
  exact Output.ofJson?_toJson node index

end PixelGraph
