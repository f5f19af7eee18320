-- SUMMARY: Attribute maps, kept in ascending order of their names.

/-!
# Attribute maps

The attributes of a node are texts under names. A map lists each name once, in ascending
order by code point, so that a map has only one form.
-/

namespace PixelGraph

structure AttributeMap where
  entries : List (String × String)
  sorted : entries.Pairwise (·.1 < ·.1)
deriving DecidableEq, Repr

namespace AttributeMap

def empty : AttributeMap :=
  ⟨[], .nil⟩

/-- Names and values in ascending order of the names. -/
def toList (m : AttributeMap) : List (String × String) :=
  m.entries

def size (m : AttributeMap) : Nat :=
  m.entries.length

def isEmpty (m : AttributeMap) : Bool :=
  m.entries.isEmpty

/-- The value under a name. -/
def get? (m : AttributeMap) (name : String) : Option String :=
  (m.entries.find? (fun e => e.1 = name)).map Prod.snd

/-! ## Insertion -/

/-- The entries with a name put in its place, or its value replaced. -/
def insertEntry (name value : String) : List (String × String) → List (String × String)
  | [] => [(name, value)]
  | e :: es =>
    if name < e.1 then (name, value) :: e :: es
    else if name = e.1 then (name, value) :: es
    else e :: insertEntry name value es

theorem fst_of_mem_insertEntry {name value : String} {es : List (String × String)}
    {e : String × String} (h : e ∈ insertEntry name value es) : e.1 = name ∨ e ∈ es := by
  induction es with
  | nil => simp_all [insertEntry]
  | cons d ds ih =>
    simp only [insertEntry] at h
    split at h
    · simp only [List.mem_cons] at h ⊢
      rcases h with rfl | h | h <;> simp_all
    · split at h
      · simp only [List.mem_cons] at h ⊢
        rcases h with rfl | h <;> simp_all
      · simp only [List.mem_cons] at h ⊢
        rcases h with rfl | h
        · exact .inr (.inl rfl)
        · exact (ih h).imp_right .inr

theorem sorted_insertEntry {name value : String} {es : List (String × String)}
    (h : es.Pairwise (·.1 < ·.1)) : (insertEntry name value es).Pairwise (·.1 < ·.1) := by
  induction es with
  | nil => simp [insertEntry]
  | cons d ds ih =>
    obtain ⟨hd, hds⟩ := List.pairwise_cons.1 h
    simp only [insertEntry]
    split
    case isTrue hlt =>
      refine List.pairwise_cons.2 ⟨fun e he => ?_, h⟩
      rcases List.mem_cons.1 he with rfl | he
      · exact hlt
      · exact String.lt_trans hlt (hd e he)
    case isFalse hlt =>
      split
      case isTrue heq => exact List.pairwise_cons.2 ⟨fun e he => heq ▸ hd e he, hds⟩
      case isFalse hne =>
        refine List.pairwise_cons.2 ⟨fun e he => ?_, ih hds⟩
        rcases fst_of_mem_insertEntry he with heq | he
        · refine heq ▸ Decidable.byContradiction fun hge => hne ?_
          exact String.le_antisymm (String.not_lt.1 hge) (String.not_lt.1 hlt)
        · exact hd e he

/-- The map with a value put under a name. -/
def insert (m : AttributeMap) (name value : String) : AttributeMap :=
  ⟨insertEntry name value m.entries, sorted_insertEntry m.sorted⟩

theorem find?_insertEntry (name value k : String) (es : List (String × String)) :
    (insertEntry name value es).find? (fun e => e.1 = k) =
      if name = k then some (name, value) else es.find? (fun e => e.1 = k) := by
  induction es with
  | nil => by_cases h : name = k <;> simp [insertEntry, h]
  | cons e es ih =>
    simp only [insertEntry]
    split
    case isTrue => by_cases h : name = k <;> simp [h]
    case isFalse =>
      split
      case isTrue heq => by_cases h : name = k <;> simp [← heq, h]
      case isFalse hne =>
        by_cases h : name = k
        case pos => subst h; simp [Ne.symm hne, ih]
        case neg => simp [List.find?_cons, h, ih]

@[simp] theorem get?_insert (m : AttributeMap) (name value k : String) :
    (m.insert name value).get? k = if name = k then some value else m.get? k := by
  simp only [get?, insert, find?_insertEntry]
  split <;> rfl

/-- The map of a list of entries. Of entries with one name the last counts. -/
def ofList (es : List (String × String)) : AttributeMap :=
  es.foldl (fun m e => m.insert e.1 e.2) empty

@[simp] theorem toList_empty : empty.toList = [] := rfl
@[simp] theorem get?_empty (name : String) : empty.get? name = none := rfl

/-- A name above all others goes to the end. -/
theorem insertEntry_of_forall_lt {name value : String} {es : List (String × String)}
    (h : ∀ e ∈ es, e.1 < name) : insertEntry name value es = es ++ [(name, value)] := by
  induction es with
  | nil => rfl
  | cons e es ih =>
    obtain ⟨he, hes⟩ := List.forall_mem_cons.1 h
    have hne : name ≠ e.1 := fun heq => String.lt_irrefl _ (heq ▸ he)
    rw [insertEntry, if_neg (String.lt_asymm he), if_neg hne, ih hes, List.cons_append]

/-- Entries in ascending order are put one after the other behind those of the map. -/
theorem entries_foldl_insert {es : List (String × String)} {m : AttributeMap}
    (h : (m.entries ++ es).Pairwise (·.1 < ·.1)) :
    (es.foldl (fun m e => m.insert e.1 e.2) m).entries = m.entries ++ es := by
  induction es generalizing m with
  | nil => rw [List.foldl_nil, List.append_nil]
  | cons e es ih =>
    have hlast : ∀ d ∈ m.entries, d.1 < e.1 := fun d hd =>
      (List.pairwise_append.1 h).2.2 d hd e List.mem_cons_self
    have hinsert : (m.insert e.1 e.2).entries = m.entries ++ [e] := insertEntry_of_forall_lt hlast
    have happend : (m.insert e.1 e.2).entries ++ es = m.entries ++ e :: es := by
      rw [hinsert, List.append_assoc, List.singleton_append]
    rw [List.foldl_cons, ih (happend ▸ h), happend]

theorem eq_of_entries_eq {m m' : AttributeMap} (h : m.entries = m'.entries) : m = m' := by
  cases m
  cases m'
  cases h
  rfl

/-- A map is the map of its entries. -/
@[simp] theorem ofList_toList (m : AttributeMap) : ofList m.toList = m :=
  eq_of_entries_eq (entries_foldl_insert m.sorted)

end AttributeMap

end PixelGraph
