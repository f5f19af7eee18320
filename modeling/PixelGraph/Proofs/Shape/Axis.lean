-- SUMMARY: Which position an axis names, in exact integers, and what is reported of an axis that names none.
import PixelGraph.Shape.Axis
import Mathlib.Data.Int.Basic

/-!
# Positions of axes

An axis is resolved in signed words. For any number of positions that such a word can hold, the
result is that of exact integers: the axes from minus the number of positions up to below it
name a position, and the type in which an axis is given does not matter. Only a report can show
another number than the one given, as an unsigned axis is shown as a signed word.
-/

namespace PixelGraph

namespace Word

variable {axis axis' : Word} {bound : Nat}

/-- The signed reading of a word is the exact one up to the number of words. -/
theorem toInt_toInt64_eq_bmod (w : Word) : w.toInt64.toInt = w.toInt.bmod UInt64.size := by
  cases w with
  | int32 v =>
    rw [toInt_int32, ← v.toInt_toInt64]
    exact (Int64.toInt_bmod_size _).symm
  | int64 v => exact v.toInt_bmod_size.symm
  | uint32 v => exact BitVec.toInt_eq_toNat_bmod v.toUInt64.toBitVec
  | uint64 v => exact BitVec.toInt_eq_toNat_bmod v.toBitVec

theorem toInt64_eq_of_toInt_eq (h : axis.toInt = axis'.toInt) : axis.toInt64 = axis'.toInt64 := by
  apply Int64.toInt_inj.1
  rw [toInt_toInt64_eq_bmod, toInt_toInt64_eq_bmod, h]

/-! ## Success -/

/-- The position is counted by the axis from the start or, below zero, from the end. -/
def Names (axis : Word) {bound : Nat} (i : Fin bound) : Prop :=
  (i.val : Int) = axis.toInt ∨ (i.val : Int) = axis.toInt + bound

/-- The axes that name a position among so many. -/
def InRange (axis : Word) (bound : Nat) : Prop :=
  -(bound : Int) ≤ axis.toInt ∧ axis.toInt < bound

theorem Names.inRange {i : Fin bound} (h : axis.Names i) : axis.InRange bound := by
  have hi := i.isLt
  unfold Names at h
  unfold InRange
  omega

theorem Names.unique {i j : Fin bound} (hi : axis.Names i) (hj : axis.Names j) : i = j := by
  have hilt := i.isLt
  have hjlt := j.isLt
  unfold Names at hi hj
  omega

theorem InRange.exists_names (h : axis.InRange bound) :
    ∃ i : Fin bound, ∀ j : Fin bound, axis.Names j ↔ j = i := by
  obtain ⟨hlow, hhigh⟩ := h
  simp only [Names, Fin.ext_iff]
  by_cases hneg : axis.toInt < 0
  case pos =>
    refine ⟨⟨(axis.toInt + bound).toNat, by omega⟩, fun j => ?_⟩
    dsimp only
    omega
  case neg =>
    refine ⟨⟨axis.toInt.toNat, by omega⟩, fun j => ?_⟩
    dsimp only
    omega

theorem resolve_eq_ok_iff (hbound : bound < signedSize) {i : Fin bound} :
    axis.resolve bound = .ok i ↔ axis.Names i := by
  have hposition : axis.resolve bound = .ok i ↔ axis.position? bound = some i := by
    rw [resolve, if_neg (Nat.ne_of_gt i.pos)]
    cases axis.position? bound with
    | none => simp
    | some j => simp
  exact hposition.trans (position?_eq_some_iff hbound)

/-! ## Failure -/

theorem resolve_of_not_inRange (hpos : 0 < bound) (hbound : bound < signedSize)
    (h : ¬ axis.InRange bound) :
    axis.resolve bound =
      .error (.outOfBounds axis.toInt64 (lowestAxis bound) (highestAxis bound)) := by
  have hnone : axis.position? bound = none := by
    apply Option.eq_none_iff_forall_ne_some.2
    intro i hi
    have hnames : axis.Names i := (position?_eq_some_iff hbound).1 hi
    exact h hnames.inRange
  rw [resolve, if_neg (Nat.ne_of_gt hpos), hnone]

/-! ## Exactness -/

/-- The words that an axis is resolved with, and those of a report, are what exact integers give. -/
structure ExactAmong (axis : Word) (bound : Nat) : Prop where
  count : (positionCount bound).toInt = bound
  sum : axis.toInt < 0 → (fromStart axis.toInt64 bound).toInt = axis.toInt + bound
  low : (lowestAxis bound).toInt = -bound
  high : (highestAxis bound).toInt = bound - 1

theorem exactAmong (axis : Word) (hpos : 0 < bound) (hbound : bound < signedSize) :
    axis.ExactAmong bound where
  count := toInt_positionCount hbound
  sum hneg := by
    have hexact : axis.toInt64.toInt = axis.toInt := axis.toInt_toInt64 (by omega)
    have hneg' : axis.toInt64 < 0 := Int64.lt_iff_toInt_lt.2 (hexact ▸ hneg)
    rw [toInt_fromStart hneg' hbound, hexact]
  low := toInt_lowestAxis hbound
  high := toInt_highestAxis hpos hbound

theorem resolve_congr (hbound : bound < signedSize) (h : axis.toInt = axis'.toInt) :
    axis.resolve bound = axis'.resolve bound := by
  have hposition : axis.position? bound = axis'.position? bound := by
    apply Option.ext
    intro i
    rw [position?_eq_some_iff hbound, position?_eq_some_iff hbound, h]
  rw [resolve, resolve, hposition, toInt64_eq_of_toInt_eq h]

/-- Among as many positions as a signed word can count, an axis names one just if it is in range,
and then only the one it resolves to. Otherwise it is reported with the range it had to be in. No
sum or negation on the way overflows, and axes of the same integer resolve alike. -/
theorem resolve_among (axis : Word) :
    axis.resolve 0 = .error .invalidBound ∧
    ∀ bound, 0 < bound → bound < signedSize →
      (axis.InRange bound → ∃ i : Fin bound,
        axis.resolve bound = .ok i ∧ ∀ j : Fin bound, axis.Names j ↔ j = i) ∧
      (¬ axis.InRange bound → ∃ index low high,
        axis.resolve bound = .error (.outOfBounds index low high) ∧
        index.toInt = axis.toInt.bmod UInt64.size ∧ low.toInt = -bound ∧ high.toInt = bound - 1) ∧
      axis.ExactAmong bound ∧
      ∀ axis' : Word, axis'.toInt = axis.toInt → axis'.resolve bound = axis.resolve bound := by
  refine ⟨rfl, fun bound hpos hbound => ⟨?_, ?_, axis.exactAmong hpos hbound, ?_⟩⟩
  · intro hrange
    obtain ⟨i, hi⟩ := hrange.exists_names
    exact ⟨i, (resolve_eq_ok_iff hbound).2 ((hi i).2 rfl), hi⟩
  · intro hrange
    have hexact := axis.exactAmong hpos hbound
    exact ⟨_, _, _, resolve_of_not_inRange hpos hbound hrange, axis.toInt_toInt64_eq_bmod,
      hexact.low, hexact.high⟩
  · intro axis' h
    exact resolve_congr hbound h

/-- The most positions that a signed word can count. -/
def mostPositions : Nat :=
  0x7FFFFFFFFFFFFFFF

/-- The least axis among the most positions names the first of them, and an unsigned axis beyond
all signed words is reported as if it were negative. -/
theorem resolve_among_most :
    (Word.int64 (-0x7FFFFFFFFFFFFFFF)).InRange mostPositions ∧
    (Word.int64 (-0x7FFFFFFFFFFFFFFF)).resolve mostPositions = .ok ⟨0, by decide⟩ ∧
    ¬ (Word.uint64 0xFFFFFFFFFFFFFFFF).InRange mostPositions ∧
    ∃ index low high,
      (Word.uint64 0xFFFFFFFFFFFFFFFF).resolve mostPositions =
        .error (.outOfBounds index low high) ∧ index.toInt = -1 := by
  have hleast : (Word.int64 (-0x7FFFFFFFFFFFFFFF)).InRange mostPositions :=
    ⟨by decide, by decide⟩
  have hbeyond : ¬ (Word.uint64 0xFFFFFFFFFFFFFFFF).InRange mostPositions :=
    fun h => absurd h.2 (by decide)
  obtain ⟨i, hi, hnames⟩ :=
    ((resolve_among (.int64 (-0x7FFFFFFFFFFFFFFF))).2 mostPositions (by decide) (by decide)).1 hleast
  obtain ⟨index, low, high, herror, hindex, -⟩ :=
    ((resolve_among (.uint64 0xFFFFFFFFFFFFFFFF)).2 mostPositions (by decide) (by decide)).2.1 hbeyond
  have hfirst : ⟨0, by decide⟩ = i := (hnames _).1 (.inr (by decide))
  exact ⟨hleast, hfirst ▸ hi, hbeyond, index, low, high, herror, hindex.trans (by decide)⟩

end Word

end PixelGraph
