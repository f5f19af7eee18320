-- SUMMARY: Tables that spell the values of an enumeration.

/-!
# Spelling tables

Enumerations are exposed as text through a table of spellings. Names and values may both
repeat in a table. Looking up a value and looking up a name each take the first match.
-/

namespace PixelGraph

/-- Pairs of a name and the value it spells. -/
structure SpellingTable (α : Type) where
  entries : List (String × α)
deriving DecidableEq, Repr

namespace SpellingTable

variable {α : Type}

/-- The first name of a value, and the empty text for a value without a name. -/
def spelling [BEq α] (t : SpellingTable α) (v : α) : String :=
  match t.entries.find? (fun e => e.2 == v) with
  | some e => e.1
  | none   => ""

/-- The first value of a name. -/
def value? (t : SpellingTable α) (name : String) : Option α :=
  (t.entries.find? (fun e => e.1 = name)).map Prod.snd

/-- Whether a text is a name of the table. -/
def accepts (t : SpellingTable α) (name : String) : Bool :=
  (t.value? name).isSome

/-- The value after setting it by name. A text that is no name leaves it as it was. -/
def assign (t : SpellingTable α) (v : α) (name : String) : α :=
  (t.value? name).getD v

@[simp] theorem value?_nil (name : String) :
    (SpellingTable.mk ([] : List (String × α))).value? name = none := rfl

theorem value?_cons (e : String × α) (es : List (String × α)) (name : String) :
    (SpellingTable.mk (e :: es)).value? name =
      if e.1 = name then some e.2 else (SpellingTable.mk es).value? name := by
  by_cases h : e.1 = name <;> simp [value?, h]

end SpellingTable

end PixelGraph
