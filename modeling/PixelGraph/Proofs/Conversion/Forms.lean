-- SUMMARY: A packed image and the two planes of a frame are accepted alike and hold as many elements.
import Mathlib.Tactic.Ring
import PixelGraph.Proofs.Conversion.Acceptance

/-!
# The two forms of a frame

A frame is given as a packed RGB image or as a Y plane and a UV plane, and each form is inferred by
arithmetic of its own. The two agree on frames of known extents: the plane that the packed image is
converted to has as many elements as the two planes together, and the extents of the packed image
leave only one choice for those of the UV plane.
-/

namespace PixelGraph

namespace TensorDesc

/-! ## Frames -/

/-- A frame as a packed RGB image. -/
def packed (n h w : UInt64) (t : ElementType) : TensorDesc :=
  ⟨⟨[.static n, .static h, .static w, .static 3]⟩, t⟩

/-- A plane with one channel. -/
def yPlane (n h w : UInt64) (t : ElementType) : TensorDesc :=
  ⟨⟨[.static n, .static h, .static w, .static 1]⟩, t⟩

/-- A plane with two channels. -/
def uvPlane (n h w : UInt64) (t : ElementType) : TensorDesc :=
  ⟨⟨[.static n, .static h, .static w, .static 2]⟩, t⟩

end TensorDesc

namespace RgbConversion

open TensorDesc

variable {c : RgbConversion} {n h w n' h' w' : UInt64} {t : ElementType} {outputs : List TensorDesc}

theorem infer_packed_eq_ok_iff :
    c.infer [packed n h w t] = .ok outputs ↔
      (t = .u8 ∨ t.isReal = true) ∧ 3 * h.toNat < UInt64.size ∧
        ∃ p : UInt64, 3 * h.toNat = 2 * p.toNat ∧ outputs = [yPlane n p w t] := by
  constructor
  · intro hinfer
    cases converts_of_infer_eq_ok hinfer with
    | packed helements hchannel hheight =>
      obtain ⟨hfit, p, rfl, hp⟩ := Dim.halfAgain_static_iff.1 hheight
      exact ⟨helements, hfit, p, hp, rfl⟩
  · rintro ⟨helements, hfit, p, hp, rfl⟩
    exact (Converts.packed helements (.inl rfl)
      (Dim.halfAgain_static_iff.2 ⟨hfit, p, rfl, hp⟩)).infer_eq_ok

theorem accepts_planes_iff :
    (∃ outputs, c.infer [yPlane n h w t, uvPlane n' h' w' t] = .ok outputs) ↔
      (t = .u8 ∨ t.isReal = true) ∧ n = n' ∧ Twice h h' ∧ Twice w w' := by
  constructor
  · rintro ⟨outputs, hinfer⟩
    cases converts_of_infer_eq_ok hinfer with
    | planes helements _ _ hbatch hheight hwidth => exact ⟨helements, hbatch, hheight, hwidth⟩
  · rintro ⟨helements, hbatch, hheight, hwidth⟩
    have hconverts : Converts [yPlane n h w t, uvPlane n' h' w' t] _ :=
      .planes helements (.inl rfl) (.inl rfl) hbatch hheight hwidth
    exact ⟨_, hconverts.infer_eq_ok⟩

/-- The elements of the plane that a frame is converted to are those of its two planes. -/
theorem elements_eq_of_twice {p : UInt64} (hheight : Twice h h') (hwidth : Twice w w')
    (hp : 3 * h.toNat = 2 * p.toNat) :
    n.toNat * p.toNat * w.toNat =
      n.toNat * h.toNat * w.toNat + 2 * (n.toNat * h'.toNat * w'.toNat) := by
  have hh : h.toNat = 2 * h'.toNat := hheight
  have hw : w.toNat = 2 * w'.toNat := hwidth
  have hthird : p.toNat = 3 * h'.toNat := by omega
  rw [hh, hw, hthird]
  ring

/-- An even extent is twice its half and no other. -/
theorem twice_iff_eq_half {e e' : UInt64} (heven : 2 ∣ e.toNat) : Twice e e' ↔ e' = e / 2 := by
  have hhalf : (e / 2).toNat = e.toNat / 2 := UInt64.toNat_div e 2
  rw [Twice, ← UInt64.toNat_inj, hhalf]
  omega

/-- If the planes of a frame are accepted, so is the packed image, as far as three times its height
is a word, and the number of elements is the same. If a packed image of even width is accepted, so
are just the planes in which each extent of the UV plane is half that of the image. -/
theorem infer_packed_and_planes (c : RgbConversion) (t : ElementType) (n h w : UInt64) :
    (∀ h' w' : UInt64,
      (∃ outputs, c.infer [yPlane n h w t, uvPlane n h' w' t] = .ok outputs) →
      3 * h.toNat < UInt64.size →
      ∃ p : UInt64, c.infer [packed n h w t] = .ok [yPlane n p w t] ∧
        n.toNat * p.toNat * w.toNat =
          n.toNat * h.toNat * w.toNat + 2 * (n.toNat * h'.toNat * w'.toNat)) ∧
    ((∃ outputs, c.infer [packed n h w t] = .ok outputs) → 2 ∣ w.toNat →
      ∀ n' h' w' : UInt64,
        (∃ outputs, c.infer [yPlane n h w t, uvPlane n' h' w' t] = .ok outputs) ↔
          n' = n ∧ h' = h / 2 ∧ w' = w / 2) := by
  constructor
  · intro h' w' hplanes hfit
    -- The height of the UV plane is half that of the image, so three of it make the new height.
    obtain ⟨helements, -, hheight, hwidth⟩ := accepts_planes_iff.1 hplanes
    have hh : h.toNat = 2 * h'.toNat := hheight
    have hword : 3 * h'.toNat < UInt64.size := by omega
    have hp : 3 * h.toNat = 2 * (UInt64.ofNat (3 * h'.toNat)).toNat := by
      rw [UInt64.toNat_ofNat_of_lt' hword]
      omega
    have hpacked : c.infer [packed n h w t] = .ok [yPlane n (.ofNat (3 * h'.toNat)) w t] :=
      infer_packed_eq_ok_iff.2 ⟨helements, hfit, _, hp, rfl⟩
    exact ⟨_, hpacked, elements_eq_of_twice hheight hwidth hp⟩
  · rintro ⟨outputs, hinfer⟩ hwidth n' h' w'
    obtain ⟨helements, -, p, hp, -⟩ := infer_packed_eq_ok_iff.1 hinfer
    have hheight : 2 ∣ h.toNat := by omega
    rw [accepts_planes_iff, and_iff_right helements, twice_iff_eq_half hheight,
      twice_iff_eq_half hwidth, eq_comm]

/-- The tallest frame that there is in both forms, and a frame without images. -/
theorem infer_packed_and_planes_tallest :
    (∃ outputs, infer {} [yPlane 2 0x5555555555555554 4 .bf16,
      uvPlane 2 0x2aaaaaaaaaaaaaaa 2 .bf16] = .ok outputs) ∧
    (∃ p : UInt64, infer {} [packed 2 0x5555555555555554 4 .bf16] = .ok [yPlane 2 p 4 .bf16] ∧
      2 * p.toNat * 4 = 2 * 0x5555555555555554 * 4 + 2 * (2 * 0x2aaaaaaaaaaaaaaa * 2)) ∧
    (∃ outputs, infer {} [packed 0 480 640 .u8] = .ok outputs) ∧
    ∀ n' h' w' : UInt64,
      (∃ outputs, infer {} [yPlane 0 480 640 .u8, uvPlane n' h' w' .u8] = .ok outputs) ↔
        n' = 0 ∧ h' = 240 ∧ w' = 320 := by
  have hplanes : ∃ outputs, infer {} [yPlane 2 0x5555555555555554 4 .bf16,
      uvPlane 2 0x2aaaaaaaaaaaaaaa 2 .bf16] = .ok outputs := ⟨_, rfl⟩
  have hpacked : ∃ outputs, infer {} [packed 0 480 640 .u8] = .ok outputs := ⟨_, rfl⟩
  refine ⟨hplanes, ?_, hpacked, ?_⟩
  · exact (infer_packed_and_planes {} .bf16 2 0x5555555555555554 4).1 _ 2 hplanes (by decide)
  · exact (infer_packed_and_planes {} .u8 0 480 640).2 hpacked (by decide)

end RgbConversion

end PixelGraph
