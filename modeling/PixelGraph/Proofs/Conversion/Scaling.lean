-- SUMMARY: Which extents scale, and for which heights a packed image has none as NV12.
import PixelGraph.Proofs.Conversion.Rejection

/-!
# Scaling

An extent is scaled by multiplying first and dividing then, so the product has to fit a word even
where the quotient would be small enough. Between a third and two thirds of the words there are
thus heights whose exact height as NV12 is a word and which are rejected all the same.
-/

namespace PixelGraph

/-! ## Extents -/

namespace Dim

variable {e num den : UInt64} {d : Dim}

/-- What a known extent asks of the fraction it is scaled by. -/
def Scales (e num den : UInt64) : Prop :=
  e.toNat * num.toNat < UInt64.size ∧ den.toNat ∣ e.toNat * num.toNat

theorem Scales.exists_scale (hden : den ≠ 0) (hscales : Scales e num den) :
    ∃ q : UInt64, (static e).scale num den = .ok (.static q) ∧
      q.toNat * den.toNat = e.toNat * num.toNat := by
  obtain ⟨hfit, q, hq⟩ := hscales
  have hpos : 0 < den.toNat := toNat_pos_of_ne_zero hden
  -- The quotient is no larger than the product.
  have hword : q < UInt64.size := by
    rw [hq] at hfit
    exact Nat.lt_of_le_of_lt (Nat.le_mul_of_pos_left q hpos) hfit
  have hproduct : (UInt64.ofNat q).toNat * den.toNat = e.toNat * num.toNat := by
    rw [UInt64.toNat_ofNat_of_lt' hword, hq, Nat.mul_comm]
  exact ⟨.ofNat q, scale_static_eq_ok_iff.2 ⟨hden, hfit, _, rfl, hproduct.symm⟩, hproduct⟩

theorem exists_error_of_not_scales (hden : den ≠ 0) (hscales : ¬ Scales e num den) :
    ∃ err, (static e).scale num den = .error err ∧ err ≠ .divisionByZero := by
  cases hscale : (static e).scale num den with
  | error err =>
    refine ⟨err, rfl, fun hzero => ?_⟩
    exact scale_ne_divisionByZero hden (static e) num (hzero ▸ hscale)
  | ok d =>
    obtain ⟨-, hfit, q, -, hq⟩ := scale_static_eq_ok_iff.1 hscale
    exact absurd ⟨hfit, q.toNat, hq.trans (Nat.mul_comm _ _)⟩ hscales

theorem exists_halfAgain_static_iff :
    (∃ d, (static e).HalfAgain d) ↔
      3 * e.toNat < UInt64.size ∧ ∃ k : UInt64, 2 * k.toNat = 3 * e.toNat := by
  simp only [halfAgain_static_iff]
  constructor
  · rintro ⟨d, hfit, k, -, hk⟩
    exact ⟨hfit, k, hk.symm⟩
  · rintro ⟨hfit, k, hk⟩
    exact ⟨.static k, hfit, k, rfl, hk.symm⟩

end Dim

/-! ## Packed images -/

namespace RgbConversion

variable {n h w ch : Dim} {t : ElementType}

/-- Of a packed image with the right channels, only the height can be wrong. -/
theorem infer_packed_eq_error_iff (c : RgbConversion) (helements : t = .u8 ∨ t.isReal = true)
    (hchannel : ch.MayBe 3) (e : ConversionError) :
    c.infer [⟨⟨[n, h, w, ch]⟩, t⟩] = .error e ↔
      (¬ ∃ h', h.HalfAgain h') ∧ e = .derivedDimension (.packedHeight h) := by
  have harity : (arityRule [⟨⟨[n, h, w, ch]⟩, t⟩]).Kept := Rule.kept_require (.inl rfl)
  have hrank : (rankRule 0 ⟨⟨[n, h, w, ch]⟩, t⟩).Kept := Rule.kept_require rfl
  have helement : (elementRule 0 ⟨⟨[n, h, w, ch]⟩, t⟩).Kept := Rule.kept_require helements
  have hchannels : (channelRule 0 3 ⟨⟨[n, h, w, ch]⟩, t⟩).Kept := by
    rw [channelRule_image]
    exact Rule.kept_require hchannel
  calc c.infer [⟨⟨[n, h, w, ch]⟩, t⟩] = .error e
      ↔ FirstBroken (rules [⟨⟨[n, h, w, ch]⟩, t⟩]) e := c.failsBy_infer _ e
    _ ↔ FirstBroken (rankRule 0 ⟨⟨[n, h, w, ch]⟩, t⟩ :: elementRule 0 ⟨⟨[n, h, w, ch]⟩, t⟩ ::
          packedRules ⟨⟨[n, h, w, ch]⟩, t⟩) e := FirstBroken.cons_iff_of_kept harity
    _ ↔ FirstBroken (packedRules ⟨⟨[n, h, w, ch]⟩, t⟩) e :=
        (FirstBroken.cons_iff_of_kept hrank).trans (FirstBroken.cons_iff_of_kept helement)
    _ ↔ packedHeightRule ⟨⟨[n, h, w, ch]⟩, t⟩ e :=
        (FirstBroken.cons_iff_of_kept hchannels).trans FirstBroken.singleton_iff
    _ ↔ (¬ ∃ h', h.HalfAgain h') ∧ e = .derivedDimension (.packedHeight h) := by
        rw [packedHeightRule_image]
        rfl

/-- An extent scales just if its product with the numerator fits a word and is a multiple of the
denominator, and then to the exact quotient. A packed image is rejected for its height just if the
height is odd or three times the height does not fit a word. -/
theorem scale_exact_or_fails (c : RgbConversion) :
    (∀ e num den : UInt64, den ≠ 0 →
      (Dim.Scales e num den → ∃ q : UInt64, (Dim.static e).scale num den = .ok (.static q) ∧
        q.toNat * den.toNat = e.toNat * num.toNat) ∧
      (¬ Dim.Scales e num den →
        ∃ err, (Dim.static e).scale num den = .error err ∧ err ≠ .divisionByZero)) ∧
    ∀ (n w ch : Dim) (h : UInt64) (t : ElementType), t = .u8 ∨ t.isReal = true → ch.MayBe 3 →
      (c.infer [⟨⟨[n, .static h, w, ch]⟩, t⟩] =
          .error (.derivedDimension (.packedHeight (.static h))) ↔
        (∀ k : UInt64, 2 * k.toNat ≠ 3 * h.toNat) ∨ UInt64.size ≤ 3 * h.toNat) := by
  constructor
  · intro e num den hden
    exact ⟨fun hscales => hscales.exists_scale hden, Dim.exists_error_of_not_scales hden⟩
  · intro n w ch h t helements hchannel
    rw [infer_packed_eq_error_iff c helements hchannel, Dim.exists_halfAgain_static_iff,
      and_iff_left rfl, not_and_or, not_exists, Nat.not_lt, or_comm]

/-- The largest even height of which three times is a word. -/
def tallestHeight : UInt64 :=
  0x5555555555555554

theorem scale_tallestHeight :
    Dim.Scales tallestHeight 3 2 ∧
    (∃ q : UInt64, (Dim.static tallestHeight).scale 3 2 = .ok (.static q) ∧
      q.toNat * 2 = tallestHeight.toNat * 3) ∧
    infer {} [⟨⟨[.static 1, .static (tallestHeight + 2), .dynamic, .static 3]⟩, .u8⟩] =
      .error (.derivedDimension (.packedHeight (.static (tallestHeight + 2)))) := by
  obtain ⟨hscale, hinfer⟩ := scale_exact_or_fails {}
  have hscales : Dim.Scales tallestHeight 3 2 := ⟨by decide, by decide⟩
  refine ⟨hscales, (hscale tallestHeight 3 2 (by decide)).1 hscales, ?_⟩
  exact (hinfer _ _ _ (tallestHeight + 2) .u8 (.inl rfl) (.inl rfl)).2 (.inr (by decide))

/-- A height of half the number of words. -/
def hugeHeight : UInt64 :=
  0x8000000000000000

/-- Half again as much is an exact word, but scaling does not give it, and a packed image of this
height is rejected. -/
theorem scale_hugeHeight :
    (∃ q : UInt64, q.toNat * 2 = hugeHeight.toNat * 3) ∧
    (Dim.static hugeHeight).scale 3 2 = .error .overflow ∧
    infer {} [⟨⟨[.static 1, .static hugeHeight, .static 4, .static 3]⟩, .u8⟩] =
      .error (.derivedDimension (.packedHeight (.static hugeHeight))) :=
  ⟨⟨0xC000000000000000, by decide⟩, rfl, rfl⟩

end RgbConversion

end PixelGraph
