-- SUMMARY: What replacing a dimension does to the dimensions that are then read or replaced.
import PixelGraph.Proofs.Checks
import PixelGraph.Proofs.Shape.Axis
import PixelGraph.Shape.Basic

/-!
# Replaced dimensions

Reading and replacing resolve an axis in the same way, so they fail alike. A replaced dimension is
read under every axis of its position, and under all other axes nothing changes. Replacing a
dimension by itself changes nothing, of two replacements at one position the later counts, and at
different positions their order does not matter.
-/

namespace PixelGraph

/-- The axes name one position among so many. -/
def Word.SamePosition (a b : Word) (bound : Nat) : Prop :=
  ∃ i : Fin bound, a.Names i ∧ b.Names i

namespace Shape

variable {ds : List Dim} {a b : Word} {c d e : Dim} {error : ShapeError} {s s' : Shape}

/-! ## Positions -/

theorem dim_mk_of_length_eq {n : Nat} (hlength : ds.length = n) (a : Word) :
    (mk ds).dim a = (a.resolve n).map fun i : Fin n => ds.get (i.cast hlength.symm) := by
  subst hlength
  unfold dim
  dsimp only [rank_mk]
  cases a.resolve ds.length with
  | error => rfl
  | ok => rfl

theorem withDim_mk_of_length_eq {n : Nat} (hlength : ds.length = n) (a : Word) (d : Dim) :
    (mk ds).withDim a d = (a.resolve n).map fun i : Fin n => mk (ds.set i d) := by
  subst hlength
  unfold withDim
  dsimp only [rank_mk]
  cases a.resolve ds.length with
  | error => rfl
  | ok => rfl

theorem dim_mk_set (i : Fin ds.length) (d : Dim) (b : Word) :
    (mk (ds.set i d)).dim b =
      (b.resolve ds.length).map fun j => if j = i then d else ds.get j := by
  rw [dim_mk_of_length_eq List.length_set]
  congr 1
  funext j
  simp [List.getElem_set, Fin.ext_iff, eq_comm]

/-! ## Axes that name a position -/

section

variable (hlength : ds.length < Word.signedSize) {i j : Fin ds.length}

include hlength

theorem withDim_of_names (ha : a.Names i) (d : Dim) :
    (mk ds).withDim a d = .ok (mk (ds.set i d)) := by
  rw [withDim_mk_of_length_eq rfl, (Word.resolve_eq_ok_iff hlength).2 ha]
  rfl

theorem withDim_eq_ok_iff :
    (mk ds).withDim a d = .ok s' ↔ ∃ i : Fin ds.length, a.Names i ∧ s' = mk (ds.set i d) := by
  rw [withDim_mk_of_length_eq rfl, map_eq_ok_iff]
  simp only [Word.resolve_eq_ok_iff hlength, eq_comm]

theorem dim_eq_ok_iff :
    (mk ds).dim a = .ok c ↔ ∃ i : Fin ds.length, a.Names i ∧ c = ds.get i := by
  rw [dim_mk_of_length_eq rfl, map_eq_ok_iff]
  simp only [Word.resolve_eq_ok_iff hlength, Fin.cast_refl, id_eq, eq_comm]

theorem dim_set_of_names (hb : b.Names i) (d : Dim) : (mk (ds.set i d)).dim b = .ok d := by
  rw [dim_mk_set, (Word.resolve_eq_ok_iff hlength).2 hb]
  simp [Except.map]

theorem dim_set_of_not_names (hb : ¬ b.Names i) (d : Dim) :
    (mk (ds.set i d)).dim b = (mk ds).dim b := by
  rw [dim_mk_set, dim_mk_of_length_eq rfl]
  cases hresolve : b.resolve ds.length with
  | error => rfl
  | ok j =>
    have hj : b.Names j := (Word.resolve_eq_ok_iff hlength).1 hresolve
    have hne : j ≠ i := fun heq => hb (heq ▸ hj)
    simp [Except.map, hne]

theorem withDim_bind_withDim (ha : a.Names i) (hb : b.Names j) (d e : Dim) :
    ((mk ds).withDim a d >>= fun s' => s'.withDim b e) = .ok (mk ((ds.set i d).set j e)) := by
  rw [withDim_of_names hlength ha]
  change (mk (ds.set i d)).withDim b e = _
  rw [withDim_mk_of_length_eq List.length_set, (Word.resolve_eq_ok_iff hlength).2 hb]
  rfl

/-! ## Laws -/

theorem exists_withDim_iff : (∃ s', (mk ds).withDim a d = .ok s') ↔ a.InRange ds.length := by
  constructor
  · rintro ⟨s', hs'⟩
    obtain ⟨i, hi, -⟩ := (withDim_eq_ok_iff hlength).1 hs'
    exact hi.inRange
  · intro hrange
    obtain ⟨i, hi⟩ := hrange.exists_names
    exact ⟨_, withDim_of_names hlength ((hi i).2 rfl) d⟩

theorem dim_of_samePosition (h : (mk ds).withDim a d = .ok s')
    (hsame : a.SamePosition b ds.length) : s'.dim b = .ok d := by
  obtain ⟨i, hi, rfl⟩ := (withDim_eq_ok_iff hlength).1 h
  obtain ⟨j, hja, hjb⟩ := hsame
  obtain rfl : j = i := hja.unique hi
  exact dim_set_of_names hlength hjb d

theorem dim_of_not_samePosition (h : (mk ds).withDim a d = .ok s')
    (hother : ¬ a.SamePosition b ds.length) : s'.dim b = (mk ds).dim b := by
  obtain ⟨i, hi, rfl⟩ := (withDim_eq_ok_iff hlength).1 h
  exact dim_set_of_not_names hlength (fun hb => hother ⟨i, hi, hb⟩) d

/-- What is read can be put back. -/
theorem withDim_of_dim_eq_ok (h : (mk ds).dim a = .ok c) :
    (mk ds).withDim a c = .ok (mk ds) := by
  obtain ⟨i, hi, rfl⟩ := (dim_eq_ok_iff hlength).1 h
  rw [withDim_of_names hlength hi, List.get_eq_getElem, List.set_getElem_self]

theorem withDim_congr (h : a.SamePosition b ds.length) (e : Dim) :
    (mk ds).withDim a e = (mk ds).withDim b e := by
  obtain ⟨i, ha, hb⟩ := h
  rw [withDim_of_names hlength ha, withDim_of_names hlength hb]

theorem withDim_bind_withDim_of_samePosition (h : a.SamePosition b ds.length) (d e : Dim) :
    ((mk ds).withDim a d >>= fun s' => s'.withDim b e) = (mk ds).withDim b e := by
  obtain ⟨i, ha, hb⟩ := h
  rw [withDim_bind_withDim hlength ha hb, withDim_of_names hlength hb, List.set_set]

theorem withDim_bind_withDim_comm (ha : a.Names i) (hb : b.Names j) (h : i ≠ j) (d e : Dim) :
    ((mk ds).withDim a d >>= fun s' => s'.withDim b e) =
      ((mk ds).withDim b e >>= fun s' => s'.withDim a d) := by
  have hval : i.val ≠ j.val := fun heq => h (Fin.ext heq)
  rw [withDim_bind_withDim hlength ha hb, withDim_bind_withDim hlength hb ha,
    List.set_comm d e hval]

end

theorem withDim_eq_error_iff : s.withDim a d = .error error ↔ s.dim a = .error error := by
  rw [withDim_mk_of_length_eq rfl, dim_mk_of_length_eq rfl, map_eq_error_iff, map_eq_error_iff]

/-- Replacing the dimension at an axis fails on the axes out of range, with the error that reading
fails with. Otherwise the rank is kept, the new dimension is read under every axis of the same
position, and under any other axis what was read before. What is read can be put back without a
change, a replacement at the same position hides the one before it, and replacements at two
positions can change places. -/
theorem withDim_laws (s : Shape) (hrank : s.rank < Word.signedSize) (a b : Word) (d e : Dim) :
    ((∃ s', s.withDim a d = .ok s') ↔ a.InRange s.rank) ∧
    (∀ error, s.withDim a d = .error error ↔ s.dim a = .error error) ∧
    (∀ s', s.withDim a d = .ok s' → s'.rank = s.rank ∧
      (a.SamePosition b s.rank → s'.dim b = .ok d) ∧
      (¬ a.SamePosition b s.rank → s'.dim b = s.dim b)) ∧
    (∀ c, s.dim a = .ok c → s.withDim a c = .ok s) ∧
    (a.SamePosition b s.rank →
      (s.withDim a d >>= fun s' => s'.withDim b e) = s.withDim b e ∧
      s.withDim a e = s.withDim b e) ∧
    (∀ i j : Fin s.rank, a.Names i → b.Names j → i ≠ j →
      (s.withDim a d >>= fun s' => s'.withDim b e) =
        (s.withDim b e >>= fun s' => s'.withDim a d)) := by
  obtain ⟨ds⟩ := s
  refine ⟨exists_withDim_iff hrank, fun _ => withDim_eq_error_iff, ?_,
    fun c => withDim_of_dim_eq_ok hrank, ?_, ?_⟩
  · intro s' hs'
    exact ⟨rank_of_withDim_eq_ok hs', dim_of_samePosition hrank hs',
      dim_of_not_samePosition hrank hs'⟩
  · intro hsame
    exact ⟨withDim_bind_withDim_of_samePosition hrank hsame d e, withDim_congr hrank hsame e⟩
  · intro i j ha hb hne
    exact withDim_bind_withDim_comm hrank ha hb hne d e

/-- An image of unknown height, with its channels last. -/
def image : Shape :=
  ⟨[.static 1, .dynamic, .static 640, .static 3]⟩

/-- The channels are named from either end, in signed and in unsigned integers, and the height by
another axis. -/
theorem withDim_laws_image :
    image.rank < Word.signedSize ∧
    (Word.int32 (-1)).SamePosition (.uint64 3) image.rank ∧
    (image.withDim (.int32 (-1)) (.static 1) >>= fun s' => s'.withDim (.uint64 3) .dynamic) =
      image.withDim (.uint64 3) .dynamic ∧
    (image.withDim (.int32 (-1)) (.static 1) >>= fun s' => s'.withDim (.int64 (-3)) (.static 480)) =
      (image.withDim (.int64 (-3)) (.static 480) >>= fun s' =>
        s'.withDim (.int32 (-1)) (.static 1)) := by
  have hrank : image.rank < Word.signedSize := by decide
  have hlast : (Word.int32 (-1)).Names (⟨3, by decide⟩ : Fin image.rank) := .inr (by decide)
  have hsame : (Word.int32 (-1)).SamePosition (.uint64 3) image.rank :=
    ⟨_, hlast, .inl (by decide)⟩
  have hheight : (Word.int64 (-3)).Names (⟨1, by decide⟩ : Fin image.rank) := .inr (by decide)
  obtain ⟨-, -, -, -, hhides, -⟩ :=
    withDim_laws image hrank (.int32 (-1)) (.uint64 3) (.static 1) .dynamic
  obtain ⟨-, -, -, -, -, hswap⟩ :=
    withDim_laws image hrank (.int32 (-1)) (.int64 (-3)) (.static 1) (.static 480)
  exact ⟨hrank, hsame, (hhides hsame).1, hswap _ _ hlast hheight (by decide)⟩

end Shape

end PixelGraph
