-- SUMMARY: The shape that extents give, by the integers that they stand for.
import PixelGraph.Proofs.Rules
import PixelGraph.Shape.Basic

/-!
# Shapes from extents

An extent stands for an integer, whatever its type: `-1` leaves a dimension open, and any integer
from zero on is the extent of a known dimension. Extents make a shape just if none of them is
below `-1`, and then it is the shape of their integers. Otherwise the first extent below `-1` is
reported.
-/

namespace PixelGraph

namespace Dim

/-- The integer by which a dimension is given. -/
def toInt : Dim → Int
  | .static e => e.toNat
  | .dynamic  => -1

@[simp] theorem toInt_static (e : UInt64) : (static e).toInt = e.toNat := rfl
@[simp] theorem toInt_dynamic : dynamic.toInt = -1 := rfl

theorem neg_one_le_toInt (d : Dim) : -1 ≤ d.toInt := by
  cases d with
  | static e => rw [toInt_static]; omega
  | dynamic  => exact Int.le_refl _

theorem toInt_inj {d d' : Dim} : d.toInt = d'.toInt ↔ d = d' := by
  cases d with
  | static e =>
    cases d' with
    | static e' => rw [toInt_static, toInt_static, Int.natCast_inj, UInt64.toNat_inj, static.injEq]
    | dynamic   => simp
  | dynamic =>
    cases d' with
    | static e' => simp
    | dynamic   => simp

theorem static_toUInt64_toInt {e : Int64} (h : 0 ≤ e) : (static e.toUInt64).toInt = e.toInt := by
  have hnonneg : 0 ≤ e.toInt := Int64.le_iff_toInt_le.1 h
  rw [toInt_static, Int64.toNat_toUInt64_of_le h, ← e.toNat_toInt, Int.toNat_of_nonneg hnonneg]

end Dim

namespace Extent

variable {x y : Extent} {d : Dim} {n : Int} {r r' : Except ShapeError Dim}

/-- The integer that an extent stands for. -/
def toInt : Extent → Int
  | .word w => w.toInt
  | .dim d  => d.toInt

/-- An extent of `-1` leaves the dimension open, and any other is the extent of the dimension. -/
def Gives (x : Extent) (d : Dim) : Prop :=
  x.toInt = -1 ∧ d = .dynamic ∨ ∃ e : UInt64, x.toInt = e.toNat ∧ d = .static e

theorem gives_iff : x.Gives d ↔ x.toInt = d.toInt := by
  cases d with
  | static e => simp [Gives]
  | dynamic  => simp [Gives]

/-! ## One extent -/

/-- What becomes of an extent, by the integer that it stands for. -/
inductive Outcome (n : Int) : Except ShapeError Dim → Prop
  | dim (d : Dim) (hd : n = d.toInt) : Outcome n (.ok d)
  | invalid (v : Int64) (hv : n = v.toInt) (hlow : n < -1) : Outcome n (.error (.invalidExtent v))

theorem outcome_signedExtent (e : Int64) : Outcome e.toInt (signedExtent e) := by
  unfold signedExtent
  split
  case isTrue h =>
    subst h
    exact .dim .dynamic rfl
  case isFalse hopen =>
    split
    case isTrue h => exact .dim _ (Dim.static_toUInt64_toInt h).symm
    case isFalse h =>
      have hneg : e.toInt < 0 := Int64.lt_iff_toInt_lt.1 (Int64.not_le.1 h)
      have hne : e.toInt ≠ -1 := fun heq => hopen (Int64.toInt_inj.1 heq)
      exact .invalid e rfl (by omega)

theorem outcome_toDim (x : Extent) : Outcome x.toInt x.toDim := by
  cases x with
  | dim d => exact .dim d rfl
  | word w =>
    cases w with
    | int32 v  =>
      have h := outcome_signedExtent v.toInt64
      rwa [v.toInt_toInt64] at h
    | int64 v  => exact outcome_signedExtent v
    | uint32 v => exact .dim _ (congrArg Int.ofNat v.toNat_toUInt64.symm)
    | uint64 v => exact .dim _ rfl

namespace Outcome

theorem unique (h : Outcome n r) (h' : Outcome n r') : r = r' := by
  cases h with
  | dim d hd =>
    cases h' with
    | dim d' hd' => rw [Dim.toInt_inj.1 (hd.symm.trans hd')]
    | invalid v hv hlow =>
      have := d.neg_one_le_toInt
      omega
  | invalid v hv hlow =>
    cases h' with
    | dim d hd =>
      have := d.neg_one_le_toInt
      omega
    | invalid v' hv' _ => rw [Int64.toInt_inj.1 (hv.symm.trans hv')]

theorem eq_ok_iff (h : Outcome n r) : r = .ok d ↔ n = d.toInt := by
  constructor
  · rintro rfl
    cases h with
    | dim _ hd => exact hd
  · intro hd
    exact h.unique (.dim d hd)

end Outcome

theorem toDim_eq_ok_iff : x.toDim = .ok d ↔ x.Gives d :=
  x.outcome_toDim.eq_ok_iff.trans gives_iff.symm

theorem toDim_congr (h : x.toInt = y.toInt) : x.toDim = y.toDim :=
  x.outcome_toDim.unique (h ▸ y.outcome_toDim)

/-! ## Rules -/

/-- The rule that an integer is not below `-1`. -/
def rule (n : Int) : Rule ShapeError :=
  fun error => n < -1 ∧ ∃ v, error = .invalidExtent v ∧ v.toInt = n

theorem failsBy_toDim (x : Extent) : FailsBy x.toDim [rule x.toInt] := by
  apply FailsBy.single
  intro error
  constructor
  · intro h
    have houtcome := x.outcome_toDim
    rw [h] at houtcome
    cases houtcome with
    | invalid v hv hlow => exact ⟨hlow, v, rfl, hv.symm⟩
  · rintro ⟨hlow, v, rfl, hv⟩
    exact x.outcome_toDim.unique (.invalid v hv.symm hlow)

theorem kept_rule_iff : (rule x.toInt).Kept ↔ -1 ≤ x.toInt := by
  constructor
  · intro hkept
    have h := x.outcome_toDim
    generalize x.toDim = r at h
    cases h with
    | dim d hd => exact hd ▸ d.neg_one_le_toInt
    | invalid v hv hlow => exact absurd ⟨hlow, v, rfl, hv.symm⟩ (hkept _)
  · rintro h error ⟨hlow, -⟩
    omega

end Extent

namespace Shape

variable {es es' : List Extent} {s : Shape} {error : ShapeError}

/-! ## Lists of extents -/

theorem ofExtents_eq_ok_iff : ofExtents es = .ok s ↔ List.Forall₂ Extent.Gives es s.dims := by
  unfold ofExtents
  simp only [bind_eq_ok_iff, mapM_eq_ok_iff, Extent.toDim_eq_ok_iff, pure_eq_ok_iff]
  constructor
  · rintro ⟨ds, hds, rfl⟩
    exact hds
  · intro hds
    exact ⟨s.dims, hds, rfl⟩

theorem failsBy_ofExtents (es : List Extent) :
    FailsBy (ofExtents es) (es.map fun x => Extent.rule x.toInt) :=
  (FailsBy.mapM Extent.failsBy_toDim es).result mk

theorem ofExtents_congr (h : es'.map Extent.toInt = es.map Extent.toInt) :
    ofExtents es' = ofExtents es := by
  have hdims : es'.map Extent.toDim = es.map Extent.toDim := by
    rw [← List.forall₂_eq_eq_eq, List.forall₂_map_left_iff, List.forall₂_map_right_iff] at h ⊢
    exact h.imp fun _ _ => Extent.toDim_congr
  have hmapM (l : List Extent) : l.mapM Extent.toDim = (l.map Extent.toDim).mapM id := by
    rw [List.mapM_map]
    rfl
  unfold ofExtents
  rw [hmapM, hmapM, hdims]

theorem exists_ofExtents_iff : (∃ s, ofExtents es = .ok s) ↔ ∀ x ∈ es, -1 ≤ x.toInt := by
  rw [(failsBy_ofExtents es).exists_eq_ok_iff, List.forall_mem_map]
  simp only [Extent.kept_rule_iff]

theorem ofExtents_eq_error_iff :
    ofExtents es = .error error ↔
      ∃ k : Nat, (∃ x, es[k]? = some x ∧ Extent.rule x.toInt error) ∧
        ∀ j < k, ∀ y, es[j]? = some y → -1 ≤ y.toInt := by
  rw [failsBy_ofExtents es error, FirstBroken.iff_getElem?]
  simp only [List.getElem?_map, Option.map_eq_some_iff, exists_exists_and_eq_and,
    forall_exists_index, and_imp, forall_apply_eq_imp_iff₂, Extent.kept_rule_iff]

/-! ## Shapes of integers -/

/-- Extents of any types make a shape just if none is below `-1`. The shape has as many dimensions
as there are extents, each given by the extent in its place. Otherwise the first extent below `-1`
is reported, whatever follows it. Extents of the same integers make the same shape. -/
theorem ofExtents_of_integers (es : List Extent) :
    ((∃ s, ofExtents es = .ok s) ↔ ∀ x ∈ es, -1 ≤ x.toInt) ∧
    (∀ s, ofExtents es = .ok s ↔ s.rank = es.length ∧ List.Forall₂ Extent.Gives es s.dims) ∧
    (∀ error, ofExtents es = .error error ↔
      ∃ k : Nat, (∃ x, es[k]? = some x ∧ x.toInt < -1 ∧
          ∃ v, error = .invalidExtent v ∧ v.toInt = x.toInt) ∧
        ∀ j < k, ∀ y, es[j]? = some y → -1 ≤ y.toInt) ∧
    ∀ es', es'.map Extent.toInt = es.map Extent.toInt → ofExtents es' = ofExtents es := by
  refine ⟨exists_ofExtents_iff, fun s => ?_, fun _ => ofExtents_eq_error_iff,
    fun _ => ofExtents_congr⟩
  rw [ofExtents_eq_ok_iff]
  constructor
  · intro hdims
    exact ⟨hdims.length_eq.symm, hdims⟩
  · exact And.right

/-- A frame of unknown height, in integers of one type. -/
def signedFrame : List Extent :=
  [.word (.int32 1), .word (.int32 (-1)), .word (.int32 640), .word (.int32 3)]

/-- The same frame with extents of other types. -/
def mixedFrame : List Extent :=
  [.word (.uint64 1), .dim .dynamic, .word (.uint32 640), .word (.int64 3)]

theorem ofExtents_of_integers_frames :
    mixedFrame.map Extent.toInt = signedFrame.map Extent.toInt ∧
    ofExtents mixedFrame = ofExtents signedFrame ∧
    ofExtents signedFrame = .ok ⟨[.static 1, .dynamic, .static 640, .static 3]⟩ := by
  obtain ⟨-, -, -, hsame⟩ := ofExtents_of_integers signedFrame
  have hintegers : mixedFrame.map Extent.toInt = signedFrame.map Extent.toInt := by decide
  exact ⟨hintegers, hsame mixedFrame hintegers, by rfl⟩

end Shape

end PixelGraph
