-- SUMMARY: A single tensor dimension, known or open, and its exact scaling.

/-!
# Dimensions

A dimension of a tensor is either known when the graph is built or left open. Known
extents are 64-bit words. Scaling by a fraction is exact or fails; an open dimension
stays open under every fraction.
-/

namespace PixelGraph

inductive Dim
  /-- An extent that is known when the graph is built. -/
  | static (extent : UInt64)
  /-- An extent that is left open. -/
  | dynamic
deriving DecidableEq, Repr, Inhabited

/-- The ways in which a known extent fails to scale. -/
inductive ScaleError
  /-- The product with the numerator does not fit a word. -/
  | overflow
  | divisionByZero
  /-- The denominator does not divide the product. -/
  | inexact
deriving DecidableEq, Repr

namespace Dim

def isStatic : Dim → Bool
  | .static _ => true
  | .dynamic  => false

def get? : Dim → Option UInt64
  | .static e => some e
  | .dynamic  => none

/-- Whether the dimension can hold `extent`. An open dimension holds anything. -/
def compatible (extent : UInt64) : Dim → Bool
  | .static e => e == extent
  | .dynamic  => true

/-- The dimension times `num / den`. The product is taken first and has to fit a word. -/
def scale (num den : UInt64) : Dim → Except ScaleError Dim
  | .dynamic  => .ok .dynamic
  | .static e =>
    if UInt64.size ≤ e.toNat * num.toNat then .error .overflow
    else if den = 0 then .error .divisionByZero
    else if e * num % den = 0 then .ok (.static (e * num / den))
    else .error .inexact

def half (d : Dim) : Except ScaleError Dim :=
  d.scale 1 2

@[simp] theorem isStatic_static (e : UInt64) : (static e).isStatic = true := rfl
@[simp] theorem isStatic_dynamic : dynamic.isStatic = false := rfl
@[simp] theorem get?_static (e : UInt64) : (static e).get? = some e := rfl
@[simp] theorem get?_dynamic : dynamic.get? = none := rfl
@[simp] theorem compatible_dynamic (e : UInt64) : dynamic.compatible e = true := rfl
@[simp] theorem scale_dynamic (num den : UInt64) : dynamic.scale num den = .ok dynamic := rfl
@[simp] theorem half_dynamic : dynamic.half = .ok dynamic := rfl

@[simp] theorem compatible_static {e extent : UInt64} :
    (static e).compatible extent = true ↔ e = extent := by
  simp [compatible]

/-! ## Exactness -/

theorem toNat_pos_of_ne_zero {den : UInt64} (hden : den ≠ 0) : 0 < den.toNat := by
  refine Nat.pos_of_ne_zero fun h => hden (UInt64.toNat_inj.1 ?_)
  rw [h]
  rfl

/-- A known extent scales exactly when the product fits a word and the denominator divides
it. -/
theorem scale_static_eq_ok_iff {e num den : UInt64} {d : Dim} :
    (static e).scale num den = .ok d ↔
      den ≠ 0 ∧ e.toNat * num.toNat < UInt64.size ∧
        ∃ q : UInt64, d = static q ∧ e.toNat * num.toNat = q.toNat * den.toNat := by
  by_cases hfit : UInt64.size ≤ e.toNat * num.toNat
  case pos => simp [scale, hfit, Nat.not_lt.2 hfit]
  by_cases hden : den = 0
  case pos => simp [scale, hfit, hden]
  have hlt : e.toNat * num.toNat < UInt64.size := Nat.lt_of_not_le hfit
  have hprod : (e * num).toNat = e.toNat * num.toNat := by
    rw [UInt64.toNat_mul]; exact Nat.mod_eq_of_lt hlt
  have hpos : 0 < den.toNat := toNat_pos_of_ne_zero hden
  have hmod : e * num % den = 0 ↔ den.toNat ∣ e.toNat * num.toNat := by
    rw [← UInt64.toNat_inj, UInt64.toNat_mod, hprod, Nat.dvd_iff_mod_eq_zero]; rfl
  simp only [scale, hfit, hden, hmod, if_false, ne_eq, not_false_eq_true, hlt, true_and]
  constructor
  · intro h
    split at h
    case isTrue hdvd =>
      cases h
      refine ⟨_, rfl, ?_⟩
      rw [UInt64.toNat_div, hprod, Nat.div_mul_cancel hdvd]
    case isFalse => cases h
  · rintro ⟨q, rfl, hq⟩
    rw [if_pos ⟨q.toNat, by rw [hq, Nat.mul_comm]⟩]
    congr 2
    rw [← UInt64.toNat_inj, UInt64.toNat_div, hprod, hq, Nat.mul_div_cancel _ hpos]

theorem scale_ne_divisionByZero {den : UInt64} (hden : den ≠ 0) (d : Dim) (num : UInt64) :
    d.scale num den ≠ .error .divisionByZero := by
  cases d with
  | dynamic => exact nofun
  | static e =>
    unfold scale
    dsimp only
    rw [if_neg hden]
    split
    · exact nofun
    · split
      · exact nofun
      · exact nofun

/-- An extent that does not scale by a fraction is too large or not a multiple. -/
theorem eq_overflow_or_inexact {d : Dim} {num den : UInt64} {err : ScaleError} (hden : den ≠ 0)
    (hscale : d.scale num den = .error err) : err = .overflow ∨ err = .inexact := by
  cases err with
  | overflow => exact .inl rfl
  | inexact => exact .inr rfl
  | divisionByZero => exact absurd hscale (scale_ne_divisionByZero hden d num)

/-- Taking half of an extent cannot overflow. -/
theorem eq_inexact_of_half {e : UInt64} {err : ScaleError}
    (hhalf : (static e).half = .error err) : err = .inexact := by
  obtain rfl | rfl := eq_overflow_or_inexact (by decide) hhalf
  · have hfit : ¬ UInt64.size ≤ e.toNat * (1 : UInt64).toNat := by
      rw [UInt64.toNat_one, Nat.mul_one]
      exact Nat.not_le.2 e.toNat_lt_size
    unfold half scale at hhalf
    dsimp only at hhalf
    rw [if_neg hfit, if_neg (by decide)] at hhalf
    split at hhalf <;> cases hhalf
  · rfl

theorem half_static_eq_ok_iff {e : UInt64} {d : Dim} :
    (static e).half = .ok d ↔ ∃ q : UInt64, d = static q ∧ e.toNat = 2 * q.toNat := by
  have he : e.toNat * (1 : UInt64).toNat = e.toNat := by simp
  rw [half, scale_static_eq_ok_iff, he]
  simp [UInt64.toNat_lt_size, Nat.mul_comm]

/-! ## Text -/

/-- A known extent is written in decimal and an open one as a question mark. -/
def text : Dim → String
  | .static e => toString e.toNat
  | .dynamic  => "?"

instance : ToString Dim := ⟨text⟩

/-- Dimensions between commas. -/
def listText (ds : List Dim) : String :=
  ", ".intercalate (ds.map text)

end Dim

end PixelGraph
