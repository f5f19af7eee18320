-- SUMMARY: What the first matches of a spelling table are, and which values are read back from their spelling.
import PixelGraph.Conversion.Format
import Mathlib.Data.List.Nodup

/-!
# Spellings and values

A value is spelled by its first entry, and a name is read by its own first entry. These need not
be the same: the name may stand earlier for another value. A value is read back from its spelling
just if its first entry is also the first of its name, which holds of all values of a table in
which no name comes twice.
-/

namespace PixelGraph

namespace SpellingTable

variable {α : Type} {t : SpellingTable α} {v : α} {name : String} {before after : List (String × α)}

/-! ## Reading a name -/

/-- The first entry with the name has the value. -/
def Reads (t : SpellingTable α) (name : String) (v : α) : Prop :=
  ∃ before after, t.entries = before ++ (name, v) :: after ∧ ∀ e ∈ before, e.1 ≠ name

theorem value?_eq_some_iff : t.value? name = some v ↔ t.Reads name v := by
  simp [value?, Reads, List.find?_eq_some_iff_append]

theorem value?_eq_none_iff : t.value? name = none ↔ ∀ e ∈ t.entries, e.1 ≠ name := by
  simp [value?]

namespace Reads

theorem mem_entries (h : t.Reads name v) : (name, v) ∈ t.entries := by
  obtain ⟨before, after, hentries, -⟩ := h
  simp [hentries]

theorem unique {w : α} (h : t.Reads name v) (h' : t.Reads name w) : v = w :=
  Option.some.inj ((value?_eq_some_iff.2 h).symm.trans (value?_eq_some_iff.2 h'))

theorem accepts (h : t.Reads name v) : t.accepts name = true := by
  simp [SpellingTable.accepts, value?_eq_some_iff.2 h]

theorem assign (h : t.Reads name v) (w : α) : t.assign w name = v := by
  simp [SpellingTable.assign, value?_eq_some_iff.2 h]

end Reads

theorem exists_reads_of_accepts (h : t.accepts name = true) : ∃ v, t.Reads name v := by
  obtain ⟨v, hv⟩ := Option.isSome_iff_exists.1 h
  exact ⟨v, value?_eq_some_iff.1 hv⟩

/-! ## Spelling a value -/

/-- The name of the first entry whose value equals the given one, or the empty text if there is no
such entry. It is up to the type which of its values are equal. -/
inductive Spells [BEq α] (t : SpellingTable α) (v : α) : String → Prop
  | first {before after : List (String × α)} {name : String} {u : α}
      (hentries : t.entries = before ++ (name, u) :: after) (hvalue : (u == v) = true)
      (hbefore : ∀ e ∈ before, (e.2 == v) = false) : Spells t v name
  | none (hentries : ∀ e ∈ t.entries, (e.2 == v) = false) : Spells t v ""

theorem spells_spelling [BEq α] (t : SpellingTable α) (v : α) : t.Spells v (t.spelling v) := by
  unfold spelling
  cases hfind : t.entries.find? (fun e => e.2 == v) with
  | none => exact .none (by simpa using hfind)
  | some e =>
    obtain ⟨hvalue, before, after, hentries, hbefore⟩ := List.find?_eq_some_iff_append.1 hfind
    exact .first hentries hvalue (by simpa using hbefore)

theorem Spells.spelling_eq [BEq α] (h : t.Spells v name) : t.spelling v = name := by
  unfold spelling
  cases h with
  | @first before after _ u hentries hvalue hbefore =>
    have hfind : t.entries.find? (fun e => e.2 == v) = some (name, u) :=
      List.find?_eq_some_iff_append.2 ⟨hvalue, before, after, hentries, by simpa using hbefore⟩
    rw [hfind]
  | none hentries =>
    have hfind : t.entries.find? (fun e => e.2 == v) = .none := by simpa using hentries
    rw [hfind]

theorem spelling_eq_iff [BEq α] : t.spelling v = name ↔ t.Spells v name :=
  ⟨fun h => h ▸ t.spells_spelling v, Spells.spelling_eq⟩

/-! Where only a value itself equals it, the entry is the first of the value. -/

/-- Of entries that have a value at all, one is the first. -/
theorem exists_first_of_mem {entries : List (String × α)} (hmem : (name, v) ∈ entries) :
    ∃ before first after, entries = before ++ (first, v) :: after ∧ ∀ e ∈ before, e.2 ≠ v := by
  induction entries with
  | nil => cases hmem
  | cons e entries ih =>
    by_cases he : e.2 = v
    case pos =>
      subst he
      exact ⟨[], e.1, entries, rfl, nofun⟩
    case neg =>
      have hrest : (name, v) ∈ entries := by
        apply List.mem_of_ne_of_mem _ hmem
        exact fun heq => he (heq ▸ rfl)
      obtain ⟨before, first, after, rfl, hvalues⟩ := ih hrest
      exact ⟨e :: before, first, after, rfl, List.forall_mem_cons.2 ⟨he, hvalues⟩⟩

theorem spelling_eq_of_first [BEq α] [LawfulBEq α]
    (hentries : t.entries = before ++ (name, v) :: after) (hvalues : ∀ e ∈ before, e.2 ≠ v) :
    t.spelling v = name :=
  spelling_eq_iff.2 (.first hentries BEq.rfl fun e he => beq_eq_false_iff_ne.2 (hvalues e he))

/-! ## Values that are read back -/

/-- The first entry of the value is also the first of its name. -/
def Distinguishes (t : SpellingTable α) (v : α) : Prop :=
  ∃ before name after, t.entries = before ++ (name, v) :: after ∧
    (∀ e ∈ before, e.2 ≠ v) ∧ ∀ e ∈ before, e.1 ≠ name

theorem Distinguishes.reads_spelling [BEq α] [LawfulBEq α] (h : t.Distinguishes v) :
    t.Reads (t.spelling v) v := by
  obtain ⟨before, name, after, hentries, hvalues, hnames⟩ := h
  rw [spelling_eq_of_first hentries hvalues]
  exact ⟨before, after, hentries, hnames⟩

theorem distinguishes_of_reads_spelling [BEq α] [LawfulBEq α] (h : t.Reads (t.spelling v) v) :
    t.Distinguishes v := by
  obtain ⟨before, after, hentries, hnames⟩ := h
  refine ⟨before, _, after, hentries, ?_, hnames⟩
  -- If the value stood earlier, it would be spelled there and not where its spelling is read.
  rintro ⟨name, v⟩ hmem rfl
  obtain ⟨earlier, first, rest, rfl, hvalues⟩ := exists_first_of_mem hmem
  rw [List.append_assoc, List.cons_append] at hentries
  have hspelling : t.spelling v = first := spelling_eq_of_first hentries hvalues
  exact hnames (first, v) (by simp) hspelling.symm

theorem distinguishes_of_nodup (hnodup : (t.entries.map Prod.fst).Nodup)
    (hmem : (name, v) ∈ t.entries) : t.Distinguishes v := by
  obtain ⟨before, first, after, hentries, hvalues⟩ := exists_first_of_mem hmem
  refine ⟨before, first, after, hentries, hvalues, ?_⟩
  intro e he heq
  rw [hentries, List.map_append, List.map_cons] at hnodup
  have hfirst : first ∈ before.map Prod.fst := List.mem_map.2 ⟨e, he, heq⟩
  exact List.disjoint_of_nodup_append hnodup hfirst List.mem_cons_self

/-- A value is read back from its spelling just if the table distinguishes it. Where no name comes
twice, setting by its spelling restores any value of the table, whatever the value before, and a
value that was set by any of its names is not changed by setting it again to its spelling. -/
theorem value?_spelling_eq_some_iff [BEq α] [LawfulBEq α] (t : SpellingTable α) :
    (∀ v, t.value? (t.spelling v) = some v ↔ t.Distinguishes v) ∧
    ((t.entries.map Prod.fst).Nodup →
      (∀ v ∈ t.entries.map Prod.snd, ∀ w,
        t.accepts (t.spelling v) = true ∧ t.assign w (t.spelling v) = v) ∧
      ∀ v name, t.accepts name = true →
        t.accepts (t.spelling (t.assign v name)) = true ∧
        t.assign (t.assign v name) (t.spelling (t.assign v name)) = t.assign v name) := by
  have hrestored (hnodup : (t.entries.map Prod.fst).Nodup) {v : α} {name : String}
      (hmem : (name, v) ∈ t.entries) (w : α) :
      t.accepts (t.spelling v) = true ∧ t.assign w (t.spelling v) = v := by
    have hreads := (distinguishes_of_nodup hnodup hmem).reads_spelling
    exact ⟨hreads.accepts, hreads.assign w⟩
  refine ⟨fun v => ?_, fun hnodup => ⟨?_, ?_⟩⟩
  · rw [value?_eq_some_iff]
    exact ⟨distinguishes_of_reads_spelling, Distinguishes.reads_spelling⟩
  · intro v hv w
    obtain ⟨⟨name, _⟩, hmem, rfl⟩ := List.mem_map.1 hv
    exact hrestored hnodup hmem w
  · intro v name haccepts
    obtain ⟨u, hu⟩ := exists_reads_of_accepts haccepts
    rw [hu.assign v]
    exact hrestored hnodup hu.mem_entries u

/-- Formats under two names each, one of them empty. -/
def formatAliases : SpellingTable PixelFormat :=
  ⟨[("NV12", .nv12), ("", .nv21), ("RGB_TO_NV12", .nv12), ("RGB_TO_NV21", .nv21)]⟩

theorem value?_spelling_formatAliases :
    (formatAliases.entries.map Prod.fst).Nodup ∧
    formatAliases.Distinguishes .nv21 ∧
    formatAliases.assign .nv12 (formatAliases.spelling .nv21) = .nv21 ∧
    formatAliases.accepts "RGB_TO_NV21" = true ∧
    formatAliases.spelling (formatAliases.assign .nv12 "RGB_TO_NV21") = "" ∧
    formatAliases.assign .nv21 "" = .nv21 := by
  obtain ⟨hdistinguishes, hsets⟩ := value?_spelling_eq_some_iff formatAliases
  have hnodup : (formatAliases.entries.map Prod.fst).Nodup := by decide
  have haccepts : formatAliases.accepts "RGB_TO_NV21" = true := by decide
  obtain ⟨hrestores, hset⟩ := hsets hnodup
  exact ⟨hnodup, (hdistinguishes .nv21).1 (by decide), (hrestores .nv21 (by decide) .nv12).2, haccepts,
    by decide, (hset .nv12 "RGB_TO_NV21" haccepts).2⟩

end SpellingTable

end PixelGraph
