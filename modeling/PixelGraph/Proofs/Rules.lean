-- SUMMARY: Rules in an order of precedence, and computations that fail by the first one broken.
import PixelGraph.Proofs.Checks

/-!
# Rules in order

Where several things are wrong at once, checks in sequence report only the first of them. What
is reported is said by a list of rules, each with the errors it reports. A rule that reports
none is kept, and the first rule of the list that is not kept decides.
-/

namespace PixelGraph

variable {ε ε' α β : Type}

/-! ## Rules -/

/-- The errors that a rule reports. -/
abbrev Rule (ε : Type) : Type :=
  ε → Prop

namespace Rule

def Kept (r : Rule ε) : Prop :=
  ∀ e, ¬ r e

/-- The rule that something holds, with the error for when it does not. -/
def require (p : Prop) (e : ε) : Rule ε :=
  fun e' => ¬ p ∧ e' = e

theorem kept_require {p : Prop} {e : ε} (hp : p) : (require p e).Kept := fun _ h => h.1 hp

theorem require_iff {p : Prop} {e e' : ε} (hp : ¬ p) : require p e e' ↔ e' = e :=
  and_iff_right hp

/-- The rule with its errors made part of a larger type. -/
def map (f : ε → ε') (r : Rule ε) : Rule ε' :=
  fun e' => ∃ e, r e ∧ f e = e'

theorem kept_map_iff {f : ε → ε'} {r : Rule ε} : (r.map f).Kept ↔ r.Kept := by
  constructor
  · intro hkept e he
    exact hkept (f e) ⟨e, he, rfl⟩
  · rintro hkept _ ⟨e, he, -⟩
    exact hkept e he

end Rule

/-! ## Precedence -/

/-- The first rule of a list that is not kept reports the error. -/
inductive FirstBroken : List (Rule ε) → ε → Prop
  | head {r : Rule ε} {rs : List (Rule ε)} {e : ε} (he : r e) : FirstBroken (r :: rs) e
  | tail {r : Rule ε} {rs : List (Rule ε)} {e : ε} (hr : r.Kept) (hrs : FirstBroken rs e) :
      FirstBroken (r :: rs) e

namespace FirstBroken

variable {r : Rule ε} {rs rs' : List (Rule ε)} {e : ε}

theorem cons_iff : FirstBroken (r :: rs) e ↔ r e ∨ r.Kept ∧ FirstBroken rs e := by
  constructor
  · intro h
    cases h with
    | head he => exact .inl he
    | tail hr hrs => exact .inr ⟨hr, hrs⟩
  · rintro (he | ⟨hr, hrs⟩)
    · exact .head he
    · exact .tail hr hrs

theorem cons_iff_of_kept (hr : r.Kept) : FirstBroken (r :: rs) e ↔ FirstBroken rs e := by
  rw [cons_iff, or_iff_right (hr e), and_iff_right hr]

theorem not_nil : ¬ FirstBroken ([] : List (Rule ε)) e := nofun

theorem singleton_iff : FirstBroken [r] e ↔ r e := by
  rw [cons_iff, or_iff_left fun h => not_nil h.2]

/-- Rules that come later only count if all before them are kept. -/
theorem append_iff :
    FirstBroken (rs ++ rs') e ↔ FirstBroken rs e ∨ (∀ r ∈ rs, r.Kept) ∧ FirstBroken rs' e := by
  induction rs with
  | nil => simp [not_nil]
  | cons r rs ih =>
    rw [List.cons_append, cons_iff, cons_iff, ih, List.forall_mem_cons, and_or_left, or_assoc,
      and_assoc]

theorem map_iff {f : ε → ε'} {e' : ε'} :
    FirstBroken (rs.map (Rule.map f)) e' ↔ ∃ e, FirstBroken rs e ∧ f e = e' := by
  induction rs with
  | nil => exact iff_of_false not_nil fun ⟨_, h, _⟩ => not_nil h
  | cons r rs ih =>
    simp only [List.map_cons, cons_iff, Rule.kept_map_iff, ih, or_and_right, exists_or, and_assoc,
      exists_and_left]
    rfl

theorem exists_mem (h : FirstBroken rs e) : ∃ r ∈ rs, r e := by
  induction h with
  | head he => exact ⟨_, List.mem_cons_self, he⟩
  | tail _ _ ih =>
    obtain ⟨r, hr, he⟩ := ih
    exact ⟨r, List.mem_cons_of_mem _ hr, he⟩

/-- The position of the first broken rule. -/
theorem iff_getElem? :
    FirstBroken rs e ↔
      ∃ k : Nat, (∃ r, rs[k]? = some r ∧ r e) ∧ ∀ j < k, ∀ r, rs[j]? = some r → r.Kept := by
  constructor
  · intro h
    induction h with
    | @head r rs e he => exact ⟨0, ⟨r, rfl, he⟩, nofun⟩
    | tail hr _ ih =>
      obtain ⟨k, hbroken, hkept⟩ := ih
      refine ⟨k + 1, hbroken, fun j hj r' hr' => ?_⟩
      cases j with
      | zero =>
        cases hr'
        exact hr
      | succ j => exact hkept j (Nat.lt_of_succ_lt_succ hj) r' hr'
  · rintro ⟨k, ⟨r, hr, he⟩, hkept⟩
    induction rs generalizing k with
    | nil => cases hr
    | cons s rs ih =>
      cases k with
      | zero =>
        cases hr
        exact .head he
      | succ k =>
        have hrest : FirstBroken rs e := ih k (fun j hj => hkept (j + 1) (Nat.succ_lt_succ hj)) hr
        exact .tail (hkept 0 k.succ_pos s rfl) hrest

theorem not_forall_kept (h : FirstBroken rs e) : ¬ ∀ r ∈ rs, r.Kept := by
  obtain ⟨r, hr, he⟩ := h.exists_mem
  exact fun hkept => hkept r hr e he

end FirstBroken

theorem forall_kept_of_not_firstBroken {rs : List (Rule ε)} (h : ∀ e, ¬ FirstBroken rs e) :
    ∀ r ∈ rs, r.Kept := by
  induction rs with
  | nil => exact nofun
  | cons r rs ih =>
    have hr : r.Kept := fun e he => h e (.head he)
    exact List.forall_mem_cons.2 ⟨hr, ih fun e hrs => h e (.tail hr hrs)⟩

/-! ## Computations that follow rules -/

/-- A computation fails just with what the first broken rule reports. -/
def FailsBy (x : Except ε α) (rs : List (Rule ε)) : Prop :=
  ∀ e, x = .error e ↔ FirstBroken rs e

namespace FailsBy

variable {r : Rule ε} {rs rs' : List (Rule ε)}

theorem forall_kept {x : Except ε α} {a : α} (hx : FailsBy x rs) (ha : x = .ok a) :
    ∀ r ∈ rs, r.Kept := by
  refine forall_kept_of_not_firstBroken fun e he => ?_
  rw [(hx e).2 he] at ha
  cases ha

theorem exists_eq_ok_iff {x : Except ε α} (hx : FailsBy x rs) :
    (∃ a, x = .ok a) ↔ ∀ r ∈ rs, r.Kept := by
  constructor
  · rintro ⟨a, ha⟩
    exact hx.forall_kept ha
  · intro hkept
    cases x with
    | ok a => exact ⟨a, rfl⟩
    | error e => exact absurd hkept ((hx e).1 rfl).not_forall_kept

/-- A computation that gives nothing but whether it fails succeeds if all rules are kept. -/
theorem eq_ok_iff {x : Except ε Unit} (hx : FailsBy x rs) : x = .ok () ↔ ∀ r ∈ rs, r.Kept := by
  rw [← hx.exists_eq_ok_iff]
  exact ⟨fun h => ⟨(), h⟩, fun ⟨_, h⟩ => h⟩

theorem ok (a : α) : FailsBy (.ok a : Except ε α) [] := fun _ =>
  iff_of_false nofun FirstBroken.not_nil

/-- A rule that is kept counts for nothing. -/
theorem kept {x : Except ε α} (hx : FailsBy x rs) (hr : r.Kept) : FailsBy x (r :: rs) := fun e =>
  (hx e).trans (FirstBroken.cons_iff_of_kept hr).symm

/-- Of a rule that is broken, the later ones count for nothing. -/
theorem error {e : ε} (hr : ∀ e', r e' ↔ e' = e) : FailsBy (.error e : Except ε α) (r :: rs) := by
  intro e'
  have hbroken : ¬ r.Kept := fun hkept => hkept e ((hr e).2 rfl)
  rw [FirstBroken.cons_iff, or_iff_left fun h => hbroken h.1, hr, Except.error.injEq, eq_comm]

theorem single {x : Except ε α} (hx : ∀ e, x = .error e ↔ r e) : FailsBy x [r] := fun e =>
  (hx e).trans FirstBroken.singleton_iff.symm

/-- A check of one thing. -/
theorem require {x : Except ε α} {p : Prop} {e : ε} (hok : p → ∃ a, x = .ok a)
    (herror : ¬ p → x = .error e) : FailsBy x [.require p e] := by
  by_cases hp : p
  · obtain ⟨a, rfl⟩ := hok hp
    exact (FailsBy.ok a).kept (Rule.kept_require hp)
  · rw [herror hp]
    exact .error fun _ => Rule.require_iff hp

/-- A check of one thing before the rest. -/
theorem guard {x y : Except ε α} {p : Prop} [Decidable p] {e : ε} (hx : p → FailsBy x rs)
    (hy : y = .error e) : FailsBy (if p then x else y) (.require p e :: rs) := by
  split
  case isTrue hp => exact (hx hp).kept (Rule.kept_require hp)
  case isFalse hp =>
    rw [hy]
    exact .error fun _ => Rule.require_iff hp

/-- What comes after a computation has its rules after those of the computation. -/
theorem bind {x : Except ε α} {f : α → Except ε β} (hx : FailsBy x rs)
    (hf : ∀ a, x = .ok a → FailsBy (f a) rs') : FailsBy (x >>= f) (rs ++ rs') := by
  intro e
  rw [FirstBroken.append_iff]
  cases x with
  | ok a =>
    -- The first part keeps all its rules, so only what comes after it can break one.
    have hkept := hx.forall_kept rfl
    have hfirst : ¬ FirstBroken rs e := fun h => h.not_forall_kept hkept
    rw [or_iff_right hfirst, and_iff_right hkept]
    exact hf a rfl e
  | error e' =>
    -- The first part breaks a rule, so nothing comes after it.
    have hbroken : FirstBroken rs e' := (hx e').1 rfl
    rw [or_iff_left fun h => hbroken.not_forall_kept h.1]
    constructor
    · intro h
      exact Except.error.inj h ▸ hbroken
    · intro h
      rw [Except.error.inj ((hx e).2 h)]
      rfl

/-- A check of one thing before what comes after it. -/
theorem check {x : Except ε α} {f : α → Except ε β} (hx : FailsBy x [r])
    (hf : ∀ a, x = .ok a → FailsBy (f a) rs) : FailsBy (x >>= f) (r :: rs) :=
  hx.bind hf

/-- Nothing is reported on the way from a value to the result. -/
theorem result {x : Except ε α} (hx : FailsBy x rs) (f : α → β) :
    FailsBy (x >>= fun a => pure (f a)) rs := by
  rw [← List.append_nil rs]
  exact hx.bind fun a _ => .ok (f a)

theorem mapError {x : Except ε α} (hx : FailsBy x rs) (f : ε → ε') :
    FailsBy (x.mapError f) (rs.map (Rule.map f)) := by
  intro e'
  rw [FirstBroken.map_iff]
  cases x with
  | ok a => exact iff_of_false nofun fun ⟨e, he, _⟩ => absurd ((hx e).2 he) nofun
  | error e =>
    constructor
    · intro h
      exact ⟨e, (hx e).1 rfl, Except.error.inj h⟩
    · rintro ⟨e₁, he₁, rfl⟩
      rw [Except.error.inj ((hx e₁).2 he₁)]
      rfl

/-- Checks of the items of a list come in the order of the list. -/
theorem forM {f : α → Except ε PUnit} {rule : α → Rule ε} (hf : ∀ a, FailsBy (f a) [rule a])
    (as : List α) : FailsBy (as.forM f) (as.map rule) := by
  induction as with
  | nil => exact .ok ()
  | cons a as ih =>
    rw [List.forM_eq_forM, List.forM_cons]
    exact (hf a).check fun _ _ => ih

theorem mapM {f : α → Except ε β} {rule : α → Rule ε} (hf : ∀ a, FailsBy (f a) [rule a])
    (as : List α) : FailsBy (as.mapM f) (as.map rule) := by
  induction as with
  | nil => exact .ok []
  | cons a as ih =>
    rw [List.mapM_cons]
    exact (hf a).check fun b _ => ih.result (b :: ·)

end FailsBy

end PixelGraph
