-- SUMMARY: What the inputs of an accepted conversion are, by the number of them.
import Mathlib.Data.List.Enum
import PixelGraph.Conversion.Inference
import PixelGraph.Proofs.Checks

/-!
# Images

A conversion is accepted only if all its inputs are images: tensors of four dimensions
whose elements the conversion supports. There are one or two of them, and what else is
checked depends on which.
-/

namespace PixelGraph

theorem ElementType.supported_iff (c : RgbConversion) (t : ElementType) :
    c.supports t = true ↔ t = .u8 ∨ t.isReal = true := by
  simp [RgbConversion.supports]

/-- A tensor that a conversion takes: four dimensions, of bytes or reals. -/
structure TensorDesc.IsImage (x : TensorDesc) : Prop where
  rank : x.rank = 4
  elements : x.elementType = .u8 ∨ x.elementType.isReal = true

namespace RgbConversion

variable {c : RgbConversion} {inputs outputs : List TensorDesc}

theorem checkRank_eq_ok_iff {input : Nat} {x : TensorDesc} :
    checkRank input x = .ok () ↔ x.rank = 4 := by
  simp [checkRank]

theorem checkType_eq_ok_iff {input : Nat} {x : TensorDesc} :
    c.checkType input x = .ok () ↔ x.elementType = .u8 ∨ x.elementType.isReal = true := by
  rw [← ElementType.supported_iff c]
  simp [checkType]

/-- A check that passes on certain inputs, wherever they stand, passes on all inputs if
they are all of these. -/
theorem forM_zipIdx_eq_ok_iff (inputs : List TensorDesc)
    (check : Nat → TensorDesc → Except ConversionError Unit) {Passes : TensorDesc → Prop}
    (hcheck : ∀ i x, check i x = .ok () ↔ Passes x) :
    (inputs.zipIdx.forM fun (x, i) => check i x) = .ok () ↔ ∀ x ∈ inputs, Passes x := by
  rw [forM_eq_ok_iff, List.forall_mem_zipIdx', List.forall_mem_iff_getElem]
  exact forall₂_congr fun i hi => hcheck i inputs[i]

theorem checkImages_eq_ok_iff :
    c.checkImages inputs = .ok () ↔ ∀ x ∈ inputs, x.IsImage := by
  have hranks := forM_zipIdx_eq_ok_iff inputs checkRank fun _ _ => checkRank_eq_ok_iff
  have htypes := forM_zipIdx_eq_ok_iff inputs c.checkType fun _ _ => checkType_eq_ok_iff
  unfold checkImages
  rw [bind_eq_ok_iff]
  constructor
  · rintro ⟨⟨⟩, hrank, htype⟩ x hx
    exact ⟨hranks.1 hrank x hx, htypes.1 htype x hx⟩
  · intro himages
    exact ⟨(), hranks.2 fun x hx => (himages x hx).rank,
      htypes.2 fun x hx => (himages x hx).elements⟩

/-- A conversion of one image or of two planes; no other number of inputs is accepted. -/
theorem infer_eq_ok_iff :
    c.infer inputs = .ok outputs ↔ (∀ x ∈ inputs, x.IsImage) ∧
      ((∃ rgb plane, inputs = [rgb] ∧ inferPacked rgb = .ok plane ∧ outputs = [plane]) ∨
        ∃ y uv, inputs = [y, uv] ∧ inferPlanes y uv = .ok outputs) := by
  match inputs with
  | [] => simp [infer]
  | [rgb] =>
    rw [infer, bind_eq_ok_iff, ← checkImages_eq_ok_iff (c := c)]
    constructor
    · rintro ⟨⟨⟩, himages, hrest⟩
      obtain ⟨plane, hplane, houtputs⟩ := bind_eq_ok_iff.1 hrest
      exact ⟨himages, .inl ⟨rgb, plane, rfl, hplane, (Except.ok.inj houtputs).symm⟩⟩
    · rintro ⟨himages, ⟨_, plane, ⟨⟩, hplane, rfl⟩ | ⟨_, _, ⟨⟩, _⟩⟩
      exact ⟨(), himages, bind_eq_ok_iff.2 ⟨plane, hplane, rfl⟩⟩
  | [y, uv] =>
    rw [infer, bind_eq_ok_iff, ← checkImages_eq_ok_iff (c := c)]
    constructor
    · rintro ⟨⟨⟩, himages, hplanes⟩
      exact ⟨himages, .inr ⟨y, uv, rfl, hplanes⟩⟩
    · rintro ⟨himages, ⟨_, _, ⟨⟩, _⟩ | ⟨_, _, ⟨⟩, hplanes⟩⟩
      exact ⟨(), himages, hplanes⟩
  | _ :: _ :: _ :: _ => simp [infer]

end RgbConversion

end PixelGraph
