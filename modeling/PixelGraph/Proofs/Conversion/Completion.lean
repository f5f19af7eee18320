-- SUMMARY: Which of the accepted inputs can be given extents throughout and still be accepted.
import PixelGraph.Proofs.Conversion.Refinement

/-!
# Completion

Inputs are completed by giving every open dimension an extent. A packed image that is accepted
can always be completed so that it is accepted again. Two planes can not, because their heights
and widths are compared only where both are known: an odd extent of the Y plane is twice no
extent, and an extent of the UV plane may be too large to be doubled.
-/

namespace PixelGraph

/-! ## Dimensions -/

namespace Dim

/-- Of two dimensions one of which is open, the other one has a half or a double. -/
def HasCounterpart : Dim → Dim → Prop
  | .static y, .dynamic  => 2 ∣ y.toNat
  | .dynamic, .static uv => 2 * uv.toNat < UInt64.size
  | _, _ => True

variable {d d' : Dim} {extent : UInt64}

theorem exists_extent (d : Dim) : ∃ e, d.RefinesTo (.static e) := by
  cases d with
  | static e => exact ⟨e, .refl _⟩
  | dynamic => exact ⟨0, .given 0⟩

theorem MayBe.refinesTo (hmay : d.MayBe extent) : d.RefinesTo (.static extent) := by
  obtain rfl | rfl := hmay
  · exact .refl _
  · exact .given extent

theorem HalfAgain.exists_extent (hagain : d.HalfAgain d') :
    ∃ e, d.RefinesTo (.static e) ∧ ∃ k, (Dim.static e).HalfAgain k := by
  cases hagain with
  | dynamic => exact ⟨0, .given 0, _, .static (by decide) (by decide)⟩
  | static heven hfit => exact ⟨_, .refl _, _, .static heven hfit⟩

theorem IfKnown.exists_extent (hsame : d.IfKnown (· = ·) d') :
    ∃ e, d.RefinesTo (.static e) ∧ d'.RefinesTo (.static e) := by
  cases d with
  | dynamic =>
    obtain ⟨e, he⟩ := d'.exists_extent
    exact ⟨e, .given e, he⟩
  | static e =>
    cases d' with
    | dynamic => exact ⟨e, .refl _, .given e⟩
    | static e' =>
      obtain rfl : e = e' := hsame
      exact ⟨e, .refl _, .refl _⟩

/-- Known extents that are in proportion are counterparts of each other, so they were before one
of them was known. -/
theorem HasCounterpart.of_refinesTo {f f' : Dim} (hd : d.RefinesTo f) (hd' : d'.RefinesTo f')
    (hf : f.isStatic = true) (hf' : f'.isStatic = true)
    (htwice : f.IfKnown RgbConversion.Twice f') : d.HasCounterpart d' := by
  cases f with
  | dynamic => cases hf
  | static y =>
    cases f' with
    | dynamic => cases hf'
    | static uv =>
      have hproportion : y.toNat = 2 * uv.toNat := htwice
      cases hd with
      | refl =>
        cases hd' with
        | refl => exact trivial
        | given => exact ⟨uv.toNat, hproportion⟩
      | given =>
        cases hd' with
        | refl =>
          change 2 * uv.toNat < UInt64.size
          rw [← hproportion]
          exact y.toNat_lt_size
        | given => exact trivial

/-- Where counterparts are not missing, extents can be chosen in proportion. -/
theorem IfKnown.exists_twice (hknown : d.IfKnown RgbConversion.Twice d')
    (hcounterpart : d.HasCounterpart d') :
    ∃ e e', d.RefinesTo (.static e) ∧ d'.RefinesTo (.static e') ∧ RgbConversion.Twice e e' := by
  cases d with
  | static y =>
    cases d' with
    | static uv => exact ⟨y, uv, .refl _, .refl _, hknown⟩
    | dynamic =>
      obtain ⟨q, hq⟩ : 2 ∣ y.toNat := hcounterpart
      have hfit : q < UInt64.size := by
        have hword := y.toNat_lt_size
        omega
      refine ⟨y, .ofNat q, .refl _, .given _, ?_⟩
      rw [RgbConversion.Twice, UInt64.toNat_ofNat_of_lt' hfit, hq]
  | dynamic =>
    cases d' with
    | static uv =>
      have hfit : 2 * uv.toNat < UInt64.size := hcounterpart
      refine ⟨.ofNat (2 * uv.toNat), uv, .given _, .refl _, ?_⟩
      exact UInt64.toNat_ofNat_of_lt' hfit
    | dynamic => exact ⟨0, 0, .given 0, .given 0, rfl⟩

end Dim

/-! ## Tensors -/

namespace TensorDesc

/-- All dimensions are known. -/
def IsStatic (x : TensorDesc) : Prop :=
  ∀ d ∈ x.shape.dims, d.isStatic = true

theorem isStatic_mk_image_iff {n h w ch : Dim} {t : ElementType} :
    (TensorDesc.mk ⟨[n, h, w, ch]⟩ t).IsStatic ↔
      n.isStatic = true ∧ h.isStatic = true ∧ w.isStatic = true ∧ ch.isStatic = true := by
  simp [IsStatic]

end TensorDesc

/-! ## Conversions -/

namespace RgbConversion

variable {c : RgbConversion} {inputs outputs : List TensorDesc}

/-- Every open dimension can be given an extent so that the inputs are accepted. -/
def HasCompletion (c : RgbConversion) (inputs : List TensorDesc) : Prop :=
  ∃ inputs', List.Forall₂ TensorDesc.RefinesTo inputs inputs' ∧ (∀ x ∈ inputs', x.IsStatic) ∧
    ∃ outputs, c.infer inputs' = .ok outputs

/-- If there are two planes, the known extents among their heights have counterparts, and so do
those among their widths. -/
def PlanesHaveCounterparts (inputs : List TensorDesc) : Prop :=
  ∀ y uv, inputs = [y, uv] → ∀ (axis : PlaneAxis) (d d' : Dim),
    y.imageDim axis.axis = .ok d → uv.imageDim axis.axis = .ok d' → d.HasCounterpart d'

theorem planesHaveCounterparts_planes {n h w ch n' h' w' ch' : Dim} {t t' : ElementType}
    (hheight : h.HasCounterpart h') (hwidth : w.HasCounterpart w') :
    PlanesHaveCounterparts [⟨⟨[n, h, w, ch]⟩, t⟩, ⟨⟨[n', h', w', ch']⟩, t'⟩] := by
  rintro _ _ ⟨⟩ axis d d' hd hd'
  cases axis with
  | height =>
    cases hd
    cases hd'
    exact hheight
  | width =>
    cases hd
    cases hd'
    exact hwidth

theorem HasCompletion.converts (hcompletion : c.HasCompletion inputs) :
    ∃ outputs, Converts inputs outputs := by
  obtain ⟨inputs', hinputs, -, outputs', hinfer⟩ := hcompletion
  obtain ⟨outputs, hconverts, -⟩ := (converts_of_infer_eq_ok hinfer).of_refinesTo hinputs
  exact ⟨outputs, hconverts⟩

theorem HasCompletion.planesHaveCounterparts (hcompletion : c.HasCompletion inputs) :
    PlanesHaveCounterparts inputs := by
  obtain ⟨inputs', hinputs, hstatic, outputs', hinfer⟩ := hcompletion
  cases converts_of_infer_eq_ok hinfer with
  | packed =>
    match inputs, hinputs with
    | [rgb], _ => rintro _ _ ⟨⟩
  | planes _ _ _ _ hheight hwidth =>
    match inputs, hinputs with
    | [y, uv], .cons hy (.cons huv .nil) =>
      rw [List.forall_mem_cons, List.forall_mem_singleton] at hstatic
      obtain ⟨hystatic, huvstatic⟩ := hstatic
      obtain ⟨-, hh', hw', -⟩ := TensorDesc.isStatic_mk_image_iff.1 hystatic
      obtain ⟨-, hk', hv', -⟩ := TensorDesc.isStatic_mk_image_iff.1 huvstatic
      obtain ⟨n, h, w, ch, rfl, -, hh, hw, -⟩ := hy.exists_dims
      obtain ⟨m, k, v, cc, rfl, -, hk, hv, -⟩ := huv.exists_dims
      apply planesHaveCounterparts_planes
      · exact .of_refinesTo hh hk hh' hk' hheight
      · exact .of_refinesTo hw hv hw' hv' hwidth

theorem Converts.hasCompletion (hconverts : Converts inputs outputs)
    (hplanes : PlanesHaveCounterparts inputs) : c.HasCompletion inputs := by
  cases hconverts with
  | @packed n h _ w ch t helements hchannel hheight =>
    obtain ⟨eN, hn⟩ := n.exists_extent
    obtain ⟨eH, hh, k, hagain⟩ := hheight.exists_extent
    obtain ⟨eW, hw⟩ := w.exists_extent
    have hcomplete : Converts [⟨⟨[.static eN, .static eH, .static eW, .static 3]⟩, t⟩]
        [⟨⟨[.static eN, k, .static eW, .static 1]⟩, t⟩] :=
      .packed helements (.inl rfl) hagain
    refine ⟨_, .cons (.mk_image hn hh hw hchannel.refinesTo) .nil, ?_, _, hcomplete.infer_eq_ok⟩
    exact List.forall_mem_singleton.2 (TensorDesc.isStatic_mk_image_iff.2 ⟨rfl, rfl, rfl, rfl⟩)
  | @planes _ _ _ _ _ _ _ _ t helements hy huv hbatch hheight hwidth =>
    obtain ⟨eN, hn, hm⟩ := hbatch.exists_extent
    obtain ⟨eH, eK, hh, hk, htall⟩ := hheight.exists_twice (hplanes _ _ rfl .height _ _ rfl rfl)
    obtain ⟨eW, eV, hw, hv, hwide⟩ := hwidth.exists_twice (hplanes _ _ rfl .width _ _ rfl rfl)
    have hcomplete : Converts
        [⟨⟨[.static eN, .static eH, .static eW, .static 1]⟩, t⟩,
          ⟨⟨[.static eN, .static eK, .static eV, .static 2]⟩, t⟩] _ :=
      .planes helements (.inl rfl) (.inl rfl) rfl htall hwide
    refine ⟨_, .cons (.mk_image hn hh hw hy.refinesTo)
      (.cons (.mk_image hm hk hv huv.refinesTo) .nil), ?_, _, hcomplete.infer_eq_ok⟩
    rw [List.forall_mem_cons, List.forall_mem_singleton]
    constructor
    · exact TensorDesc.isStatic_mk_image_iff.2 ⟨rfl, rfl, rfl, rfl⟩
    · exact TensorDesc.isStatic_mk_image_iff.2 ⟨rfl, rfl, rfl, rfl⟩

/-- Inputs can be completed just if they are accepted as they are and, where an extent of one
plane is known and that of the other is open, the known one has a half or a double. -/
theorem hasCompletion_iff (c : RgbConversion) (inputs : List TensorDesc) :
    c.HasCompletion inputs ↔
      (∃ outputs, c.infer inputs = .ok outputs) ∧ PlanesHaveCounterparts inputs := by
  constructor
  · intro hcompletion
    obtain ⟨outputs, hconverts⟩ := hcompletion.converts
    exact ⟨⟨outputs, hconverts.infer_eq_ok⟩, hcompletion.planesHaveCounterparts⟩
  · rintro ⟨⟨outputs, hinfer⟩, hplanes⟩
    exact (converts_of_infer_eq_ok hinfer).hasCompletion hplanes

/-- A Y plane of odd height, and a UV plane of open height. -/
def oddPlanes : List TensorDesc :=
  [⟨⟨[.static 1, .static 3, .static 4, .static 1]⟩, .u8⟩,
    ⟨⟨[.static 1, .dynamic, .static 2, .static 2]⟩, .u8⟩]

/-- A Y plane of open height, and a UV plane with a height of half the number of words. -/
def hugePlanes : List TensorDesc :=
  [⟨⟨[.static 1, .dynamic, .static 4, .static 1]⟩, .u8⟩,
    ⟨⟨[.static 1, .static 0x8000000000000000, .static 2, .static 2]⟩, .u8⟩]

/-- Planes can be accepted though no extents fit their open dimensions. -/
theorem infer_oddPlanes_hugePlanes :
    (infer {} oddPlanes = .ok oddPlanes ∧ ¬ HasCompletion {} oddPlanes) ∧
    infer {} hugePlanes = .ok hugePlanes ∧ ¬ HasCompletion {} hugePlanes := by
  refine ⟨⟨rfl, fun hodd => ?_⟩, rfl, fun hhuge => ?_⟩
  · have heven : 2 ∣ (3 : UInt64).toNat :=
      hodd.planesHaveCounterparts _ _ rfl .height _ _ rfl rfl
    exact absurd heven (by decide)
  · have hfit : 2 * (0x8000000000000000 : UInt64).toNat < UInt64.size :=
      hhuge.planesHaveCounterparts _ _ rfl .height _ _ rfl rfl
    exact absurd hfit (by decide)

end RgbConversion

end PixelGraph
