-- SUMMARY: Giving open dimensions an extent never makes inputs acceptable, and keeps what is known of the outputs.
import PixelGraph.Proofs.Conversion.Acceptance

/-!
# Refinement

A tensor is refined by giving some of its open dimensions an extent. No check fails because of
an open dimension, so inputs that are rejected stay rejected however they are refined, though
it may be another check that fails first. Where inputs stay accepted, the outputs are refined
along with them.
-/

namespace PixelGraph

/-! ## Dimensions -/

namespace Dim

/-- The second dimension is the first, or the first is open and has been given an extent. -/
inductive RefinesTo : Dim → Dim → Prop
  | refl (d : Dim) : RefinesTo d d
  | given (e : UInt64) : RefinesTo .dynamic (.static e)

variable {d d' f f' : Dim} {extent : UInt64}

theorem MayBe.of_refinesTo (hd : d.RefinesTo d') (hmay : d'.MayBe extent) : d.MayBe extent := by
  cases hd with
  | refl => exact hmay
  | given e => exact .inr rfl

theorem IfKnown.of_refinesTo {R : UInt64 → UInt64 → Prop} (hd : d.RefinesTo d')
    (hf : f.RefinesTo f') (hknown : d'.IfKnown R f') : d.IfKnown R f := by
  cases hd with
  | given e => exact trivial
  | refl =>
    cases hf with
    | refl => exact hknown
    | given e =>
      -- The second dimension is open, and then nothing is asked of the first.
      cases d with
      | static _ => exact trivial
      | dynamic => exact trivial

/-- The height of a plane is known as far as that of the packed image. -/
theorem HalfAgain.of_refinesTo (hd : d.RefinesTo d') (hagain : d'.HalfAgain f') :
    ∃ f, d.HalfAgain f ∧ f.RefinesTo f' := by
  cases hd with
  | refl => exact ⟨f', hagain, .refl f'⟩
  | given e =>
    cases hagain with
    | static heven hfit => exact ⟨.dynamic, .dynamic, .given _⟩

end Dim

/-! ## Tensors -/

namespace TensorDesc

/-- The elements and the rank are the same, and some open dimensions have been given an
extent. -/
structure RefinesTo (x x' : TensorDesc) : Prop where
  dims : List.Forall₂ Dim.RefinesTo x.shape.dims x'.shape.dims
  elementType : x.elementType = x'.elementType

variable {n h w ch n' h' w' ch' : Dim} {t : ElementType}

theorem RefinesTo.mk_image (hn : n.RefinesTo n') (hh : h.RefinesTo h') (hw : w.RefinesTo w')
    (hch : ch.RefinesTo ch') :
    (TensorDesc.mk ⟨[n, h, w, ch]⟩ t).RefinesTo ⟨⟨[n', h', w', ch']⟩, t⟩ where
  dims := .cons hn (.cons hh (.cons hw (.cons hch .nil)))
  elementType := rfl

/-- What is refined to an image of four dimensions has four dimensions. -/
theorem RefinesTo.exists_dims {x : TensorDesc} (hx : x.RefinesTo ⟨⟨[n', h', w', ch']⟩, t⟩) :
    ∃ n h w ch, x = ⟨⟨[n, h, w, ch]⟩, t⟩ ∧ n.RefinesTo n' ∧ h.RefinesTo h' ∧ w.RefinesTo w' ∧
      ch.RefinesTo ch' := by
  obtain ⟨⟨dims⟩, t'⟩ := x
  obtain ⟨hdims, htype⟩ := hx
  dsimp only at hdims htype
  subst htype
  match dims, hdims with
  | [n, h, w, ch], .cons hn (.cons hh (.cons hw (.cons hch .nil))) =>
    exact ⟨n, h, w, ch, rfl, hn, hh, hw, hch⟩

end TensorDesc

/-! ## Conversions -/

namespace RgbConversion

variable {inputs inputs' outputs' : List TensorDesc}

/-- Inputs are converted if they can be refined to some that are. -/
theorem Converts.of_refinesTo (hinputs : List.Forall₂ TensorDesc.RefinesTo inputs inputs')
    (hconverts : Converts inputs' outputs') :
    ∃ outputs, Converts inputs outputs ∧
      List.Forall₂ TensorDesc.RefinesTo outputs outputs' := by
  cases hconverts with
  | packed helements hchannel hheight =>
    match inputs, hinputs with
    | [rgb], .cons hrgb .nil =>
      obtain ⟨n, h, w, ch, rfl, hn, hh, hw, hch⟩ := hrgb.exists_dims
      obtain ⟨k, hagain, hk⟩ := hheight.of_refinesTo hh
      refine ⟨_, .packed helements (hchannel.of_refinesTo hch) hagain, ?_⟩
      exact .cons (.mk_image hn hk hw (.refl _)) .nil
  | planes helements hy huv hbatch hheight hwidth =>
    match inputs, hinputs with
    | [y, uv], .cons hyref (.cons huvref .nil) =>
      obtain ⟨n, h, w, ch, rfl, hn, hh, hw, hch⟩ := hyref.exists_dims
      obtain ⟨m, k, v, cc, rfl, hm, hk, hv, hcc⟩ := huvref.exists_dims
      refine ⟨_, .planes helements (hy.of_refinesTo hch) (huv.of_refinesTo hcc)
        (hbatch.of_refinesTo hn hm) (hheight.of_refinesTo hh hk) (hwidth.of_refinesTo hw hv), ?_⟩
      exact .cons hyref (.cons huvref .nil)

/-- Knowing more of the inputs never makes them acceptable, and if they are accepted both before
and after, no more is lost of the outputs than of the inputs. -/
theorem infer_of_refinesTo (c : RgbConversion)
    (hinputs : List.Forall₂ TensorDesc.RefinesTo inputs inputs') :
    ((∃ e, c.infer inputs = .error e) → ∃ e, c.infer inputs' = .error e) ∧
    ∀ outputs outputs', c.infer inputs = .ok outputs → c.infer inputs' = .ok outputs' →
      List.Forall₂ TensorDesc.RefinesTo outputs outputs' := by
  constructor
  · rintro ⟨e, he⟩
    cases hinfer : c.infer inputs' with
    | error e' => exact ⟨e', rfl⟩
    | ok outputs' =>
      obtain ⟨outputs, hconverts, -⟩ := (converts_of_infer_eq_ok hinfer).of_refinesTo hinputs
      rw [hconverts.infer_eq_ok] at he
      cases he
  · intro outputs outputs' hinfer hinfer'
    obtain ⟨_, hconverts, houtputs⟩ := (converts_of_infer_eq_ok hinfer').of_refinesTo hinputs
    rw [hconverts.infer_eq_ok] at hinfer
    cases hinfer
    exact houtputs

/-- A frame of open height, and the same with its height. -/
def openFrame : TensorDesc :=
  ⟨⟨[.dynamic, .dynamic, .static 640, .static 3]⟩, .f16⟩

def tallFrame : TensorDesc :=
  ⟨⟨[.dynamic, .static 480, .static 640, .static 3]⟩, .f16⟩

/-- A Y plane that is too low for the UV plane below, without and with its batch. -/
def lowPlane (batch : Dim) : TensorDesc :=
  ⟨⟨[batch, .static 4, .static 4, .static 1]⟩, .f16⟩

def highPlane : TensorDesc :=
  ⟨⟨[.static 2, .static 3, .static 2, .static 2]⟩, .f16⟩

/-- With the height of the frame the height of its conversion is known. With the batch of the Y
plane the planes are still rejected, but for their batches. -/
theorem infer_openFrame_lowPlane :
    (List.Forall₂ TensorDesc.RefinesTo [openFrame] [tallFrame] ∧
      infer {} [openFrame] = .ok [⟨⟨[.dynamic, .dynamic, .static 640, .static 1]⟩, .f16⟩] ∧
      infer {} [tallFrame] = .ok [⟨⟨[.dynamic, .static 720, .static 640, .static 1]⟩, .f16⟩] ∧
      List.Forall₂ TensorDesc.RefinesTo
        [⟨⟨[.dynamic, .dynamic, .static 640, .static 1]⟩, .f16⟩]
        [⟨⟨[.dynamic, .static 720, .static 640, .static 1]⟩, .f16⟩]) ∧
    List.Forall₂ TensorDesc.RefinesTo [lowPlane .dynamic, highPlane]
      [lowPlane (.static 1), highPlane] ∧
    infer {} [lowPlane .dynamic, highPlane] =
      .error (.derivedDimension (.planeHalf .height 3 4)) ∧
    ∃ e, infer {} [lowPlane (.static 1), highPlane] = .error e := by
  have hframe : List.Forall₂ TensorDesc.RefinesTo [openFrame] [tallFrame] :=
    .cons (.mk_image (.refl _) (.given 480) (.refl _) (.refl _)) .nil
  have hplanes : List.Forall₂ TensorDesc.RefinesTo [lowPlane .dynamic, highPlane]
      [lowPlane (.static 1), highPlane] :=
    .cons (.mk_image (.given 1) (.refl _) (.refl _) (.refl _))
      (.cons (.mk_image (.refl _) (.refl _) (.refl _) (.refl _)) .nil)
  refine ⟨⟨hframe, rfl, rfl, ?_⟩, hplanes, rfl, ?_⟩
  · exact (infer_of_refinesTo {} hframe).2 _ _ rfl rfl
  · exact (infer_of_refinesTo {} hplanes).1 ⟨_, rfl⟩

-- The batches are compared before the heights.
example : infer {} [lowPlane (.static 1), highPlane] =
    .error (.batchMismatch (.static 1) (.static 2)) := rfl

end RgbConversion

end PixelGraph
