-- SUMMARY: Which tensors a conversion accepts, said of their dimensions, and what it then gives.
import PixelGraph.Proofs.Conversion.Images

/-!
# Acceptance

The relation `Converts` says of the dimensions of the inputs when they are converted and to
what, without the checks and their order. A dimension with a prescribed extent may also be
open, and two dimensions are compared only if both are known. Inference computes just this
relation.
-/

namespace PixelGraph

/-! ## Dimensions -/

namespace Dim

/-- A dimension that is known to have a certain extent, or open. -/
def MayBe (extent : UInt64) (d : Dim) : Prop :=
  d = .static extent ∨ d = .dynamic

/-- A relation between extents, which is asked of two dimensions only if both are known. -/
def IfKnown (R : UInt64 → UInt64 → Prop) : Dim → Dim → Prop
  | .static e, .static e' => R e e'
  | _, _ => True

theorem compatible_iff_mayBe {extent : UInt64} {d : Dim} :
    d.compatible extent = true ↔ d.MayBe extent := by
  cases d with
  | static e => simp [MayBe]
  | dynamic => simp [MayBe]

/-- The dimension of an NV12 plane for a dimension of the packed image, which is half again
as large. A known extent has to be even, and three times the extent has to fit a word. -/
inductive HalfAgain : Dim → Dim → Prop
  | dynamic : HalfAgain .dynamic .dynamic
  | static {e : UInt64} (heven : 2 ∣ e.toNat) (hfit : 3 * e.toNat < UInt64.size) :
      HalfAgain (.static e) (.static (.ofNat (3 * e.toNat / 2)))

/-- Nothing is lost by the division. -/
theorem halfAgain_static_iff {e : UInt64} {d : Dim} :
    HalfAgain (.static e) d ↔
      3 * e.toNat < UInt64.size ∧ ∃ q : UInt64, d = .static q ∧ 3 * e.toNat = 2 * q.toNat := by
  constructor
  · intro h
    cases h with
    | static heven hfit =>
      have hword : 3 * e.toNat / 2 < UInt64.size := by omega
      have htoNat : (UInt64.ofNat (3 * e.toNat / 2)).toNat = 3 * e.toNat / 2 :=
        UInt64.toNat_ofNat_of_lt' hword
      refine ⟨hfit, _, rfl, ?_⟩
      rw [htoNat]
      omega
  · rintro ⟨hfit, q, rfl, hq⟩
    have hofNat : q = .ofNat (3 * e.toNat / 2) := by
      rw [hq, Nat.mul_div_cancel_left _ (by decide), UInt64.ofNat_toNat]
    rw [hofNat]
    exact .static (by omega) hfit

end Dim

/-! ## Images -/

namespace TensorDesc.IsImage

theorem of_elements {n h w ch : Dim} {t : ElementType}
    (helements : t = .u8 ∨ t.isReal = true) : (TensorDesc.mk ⟨[n, h, w, ch]⟩ t).IsImage :=
  ⟨rfl, helements⟩

theorem exists_dims {x : TensorDesc} (hx : x.IsImage) :
    ∃ n h w ch t, x = ⟨⟨[n, h, w, ch]⟩, t⟩ := by
  obtain ⟨⟨dims⟩, t⟩ := x
  match dims, hx.rank with
  | [n, h, w, ch], _ => exact ⟨n, h, w, ch, t, rfl⟩

end TensorDesc.IsImage

/-! ## Conversions -/

namespace RgbConversion

/-- The extent of the Y plane is twice that of the UV plane. -/
def Twice (y uv : UInt64) : Prop :=
  y.toNat = 2 * uv.toNat

/-- The inputs that are converted, each with the outputs it is converted to. -/
inductive Converts : List TensorDesc → List TensorDesc → Prop
  /-- A packed image becomes one plane with one channel. -/
  | packed {n h h' w ch : Dim} {t : ElementType} (helements : t = .u8 ∨ t.isReal = true)
      (hchannel : ch.MayBe 3) (hheight : h.HalfAgain h') :
      Converts [⟨⟨[n, h, w, ch]⟩, t⟩] [⟨⟨[n, h', w, .static 1]⟩, t⟩]
  /-- A Y plane and a UV plane stay as they are. -/
  | planes {n h w ch n' h' w' ch' : Dim} {t : ElementType}
      (helements : t = .u8 ∨ t.isReal = true) (hy : ch.MayBe 1) (huv : ch'.MayBe 2)
      (hbatch : n.IfKnown (· = ·) n') (hheight : h.IfKnown Twice h')
      (hwidth : w.IfKnown Twice w') :
      Converts [⟨⟨[n, h, w, ch]⟩, t⟩, ⟨⟨[n', h', w', ch']⟩, t⟩]
        [⟨⟨[n, h, w, ch]⟩, t⟩, ⟨⟨[n', h', w', ch']⟩, t⟩]

/-! ## Single checks -/

variable {n h w ch n' h' w' ch' : Dim} {t : ElementType}

theorem packedHeight_eq_ok_iff : packedHeight h = .ok h' ↔ h.HalfAgain h' := by
  unfold packedHeight
  rw [mapError_eq_ok_iff]
  cases h with
  | dynamic =>
    rw [Dim.scale_dynamic]
    constructor
    · intro hok
      cases hok
      exact .dynamic
    · intro hagain
      cases hagain
      rfl
  | static e =>
    have hproduct : e.toNat * (3 : UInt64).toNat = 3 * e.toNat := Nat.mul_comm _ _
    have hhalf : ∀ q : UInt64, q.toNat * (2 : UInt64).toNat = 2 * q.toNat := fun q =>
      Nat.mul_comm _ _
    rw [Dim.scale_static_eq_ok_iff, Dim.halfAgain_static_iff, hproduct]
    simp only [hhalf]
    exact and_iff_right (by decide)

theorem checkChannels_eq_ok_iff {input : Nat} {expected : UInt64} :
    checkChannels input expected ⟨⟨[n, h, w, ch]⟩, t⟩ = .ok () ↔ ch.MayBe expected := by
  rw [← Dim.compatible_iff_mayBe]
  unfold checkChannels
  rw [TensorDesc.imageDim_channel]
  by_cases hch : ch.compatible expected = true
  · simp [hch, bind, Except.bind]
  · simp [hch, bind, Except.bind]

theorem checkBatch_eq_ok_iff {t' : ElementType} :
    checkBatch ⟨⟨[n, h, w, ch]⟩, t⟩ ⟨⟨[n', h', w', ch']⟩, t'⟩ = .ok () ↔
      n.IfKnown (· = ·) n' := by
  unfold checkBatch
  rw [TensorDesc.imageDim_batch, TensorDesc.imageDim_batch]
  cases n with
  | dynamic => exact iff_of_true rfl trivial
  | static e =>
    cases n' with
    | dynamic => exact iff_of_true rfl trivial
    | static e' => simp [bind, Except.bind, Dim.IfKnown]

theorem half_eq_static_iff_twice {e e' : UInt64} :
    (Dim.static e).half.toOption = some (.static e') ↔ Twice e e' := by
  rw [toOption_eq_some_iff, Dim.half_static_eq_ok_iff]
  simp [Twice]

theorem checkHalf_eq_ok_iff {axis : PlaneAxis} {y uv : TensorDesc} {d d' : Dim}
    (hy : y.imageDim axis.axis = .ok d) (huv : uv.imageDim axis.axis = .ok d') :
    checkHalf axis y uv = .ok () ↔ d.IfKnown Twice d' := by
  unfold checkHalf
  rw [hy, huv]
  cases d with
  | dynamic => exact iff_of_true rfl trivial
  | static e =>
    cases d' with
    | dynamic => exact iff_of_true rfl trivial
    | static e' =>
      rw [Dim.IfKnown, ← half_eq_static_iff_twice]
      simp [bind, Except.bind]

theorem checkHalf_height_eq_ok_iff {t' : ElementType} :
    checkHalf .height ⟨⟨[n, h, w, ch]⟩, t⟩ ⟨⟨[n', h', w', ch']⟩, t'⟩ = .ok () ↔
      h.IfKnown Twice h' :=
  checkHalf_eq_ok_iff rfl rfl

theorem checkHalf_width_eq_ok_iff {t' : ElementType} :
    checkHalf .width ⟨⟨[n, h, w, ch]⟩, t⟩ ⟨⟨[n', h', w', ch']⟩, t'⟩ = .ok () ↔
      w.IfKnown Twice w' :=
  checkHalf_eq_ok_iff rfl rfl

/-! ## The two forms -/

theorem inferPacked_eq_ok_iff {plane : TensorDesc} :
    inferPacked ⟨⟨[n, h, w, ch]⟩, t⟩ = .ok plane ↔
      ch.MayBe 3 ∧ ∃ h', h.HalfAgain h' ∧ plane = ⟨⟨[n, h', w, .static 1]⟩, t⟩ := by
  unfold inferPacked
  rw [check_bind_eq_ok_iff, checkChannels_eq_ok_iff, TensorDesc.imageDim_height]
  refine and_congr_right fun _ => ?_
  change packedHeight h >>= _ = _ ↔ _
  rw [bind_eq_ok_iff]
  refine exists_congr fun h' => ?_
  rw [packedHeight_eq_ok_iff]
  refine and_congr_right fun _ => ?_
  -- Both axes are found in a shape of rank four, so replacing their dimensions cannot fail.
  change pure (TensorDesc.mk ⟨[n, h', w, .static 1]⟩ t) = Except.ok plane ↔ _
  exact pure_eq_ok_iff

theorem inferPlanes_eq_ok_iff {t' : ElementType} {outputs : List TensorDesc} :
    inferPlanes ⟨⟨[n, h, w, ch]⟩, t⟩ ⟨⟨[n', h', w', ch']⟩, t'⟩ = .ok outputs ↔
      t = t' ∧ ch.MayBe 1 ∧ ch'.MayBe 2 ∧ n.IfKnown (· = ·) n' ∧ h.IfKnown Twice h' ∧
        w.IfKnown Twice w' ∧ outputs = [⟨⟨[n, h, w, ch]⟩, t⟩, ⟨⟨[n', h', w', ch']⟩, t'⟩] := by
  unfold inferPlanes
  by_cases htype : t = t'
  · rw [if_pos htype, and_iff_right htype]
    simp only [check_bind_eq_ok_iff, pure_eq_ok_iff, checkChannels_eq_ok_iff,
      checkBatch_eq_ok_iff, checkHalf_height_eq_ok_iff, checkHalf_width_eq_ok_iff]
  · rw [if_neg htype]
    exact iff_of_false nofun fun hplanes => htype hplanes.1

/-! ## Inference -/

variable {c : RgbConversion} {inputs outputs : List TensorDesc}

theorem converts_of_infer_eq_ok (hinfer : c.infer inputs = .ok outputs) :
    Converts inputs outputs := by
  obtain ⟨himages, ⟨rgb, plane, rfl, hplane, rfl⟩ | ⟨y, uv, rfl, hplanes⟩⟩ :=
    infer_eq_ok_iff.1 hinfer
  · have hrgb : rgb.IsImage := himages rgb List.mem_cons_self
    obtain ⟨n, h, w, ch, t, rfl⟩ := hrgb.exists_dims
    obtain ⟨hchannel, h', hheight, rfl⟩ := inferPacked_eq_ok_iff.1 hplane
    exact .packed hrgb.elements hchannel hheight
  · have hy : y.IsImage := himages y List.mem_cons_self
    have huv : uv.IsImage := himages uv (List.mem_cons_of_mem y List.mem_cons_self)
    obtain ⟨n, h, w, ch, t, rfl⟩ := hy.exists_dims
    obtain ⟨n', h', w', ch', t', rfl⟩ := huv.exists_dims
    obtain ⟨rfl, hych, huvch, hbatch, hheight, hwidth, rfl⟩ := inferPlanes_eq_ok_iff.1 hplanes
    exact .planes hy.elements hych huvch hbatch hheight hwidth

theorem Converts.infer_eq_ok (hconverts : Converts inputs outputs) :
    c.infer inputs = .ok outputs := by
  apply infer_eq_ok_iff.2
  cases hconverts with
  | packed helements hchannel hheight =>
    refine ⟨?_, .inl ⟨_, _, rfl, ?_, rfl⟩⟩
    · exact List.forall_mem_singleton.2 (.of_elements helements)
    · exact inferPacked_eq_ok_iff.2 ⟨hchannel, _, hheight, rfl⟩
  | planes helements hy huv hbatch hheight hwidth =>
    refine ⟨?_, .inr ⟨_, _, rfl, ?_⟩⟩
    · refine List.forall_mem_cons.2 ⟨.of_elements helements, ?_⟩
      exact List.forall_mem_singleton.2 (.of_elements helements)
    · exact inferPlanes_eq_ok_iff.2 ⟨rfl, hy, huv, hbatch, hheight, hwidth, rfl⟩

/-- Whatever the format, inference succeeds just on the inputs that are converted to something,
and then gives that. -/
theorem infer_eq_ok_iff_converts : c.infer inputs = .ok outputs ↔ Converts inputs outputs :=
  ⟨converts_of_infer_eq_ok, Converts.infer_eq_ok⟩

end RgbConversion

end PixelGraph
