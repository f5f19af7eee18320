-- SUMMARY: The texts of numbers, dimensions, shapes and tensors are delimited.
import PixelGraph.Tensor
import PixelGraph.Proofs.Text.Delimited

/-!
# Texts of tensors

A number goes on with digits only, a dimension also with a question mark. A shape ends with
its bracket, whatever its rank, and so does the description of a tensor.
-/

namespace PixelGraph

theorem isDigit_of_mem_digits {n : Nat} {c : Char} (hc : c ∈ Nat.toDigits 10 n) :
    c.isDigit = true :=
  Nat.isDigit_of_mem_toDigits (by decide) (by decide) hc

theorem begins_digits : Begins (Nat.toDigits 10) Char.isDigit := by
  intro n
  cases hdigits : Nat.toDigits 10 n with
  | nil => exact absurd hdigits Nat.toDigits_ne_nil
  | cons c cs => exact ⟨c, cs, rfl, isDigit_of_mem_digits (hdigits ▸ List.mem_cons_self)⟩

theorem delimited_digits : Delimited (Nat.toDigits 10) Char.isDigit := by
  apply delimited_of_forall_mem
  · intro n m hnm
    rw [← Nat.ofDigitChars_ten_toDigits (n := n), hnm, Nat.ofDigitChars_ten_toDigits]
  · intro n c hc
    exact isDigit_of_mem_digits hc

/-! ## Dimensions -/

namespace Dim

/-- The characters of the text of a dimension. -/
def isTextChar (c : Char) : Bool :=
  c.isDigit || c == '?'

theorem toList_text_static (e : UInt64) : (static e).text.toList = Nat.toDigits 10 e.toNat :=
  Nat.toList_repr

theorem isTextChar_of_mem_text {d : Dim} {c : Char} (hc : c ∈ d.text.toList) :
    isTextChar c = true := by
  cases d with
  | static e =>
    rw [toList_text_static] at hc
    rw [isTextChar, isDigit_of_mem_digits hc]
    rfl
  | dynamic =>
    rw [List.mem_singleton.1 hc]
    rfl

theorem digits_ne_dynamic (e : UInt64) : (static e).text ≠ dynamic.text := by
  intro heq
  have hmem : '?' ∈ (static e).text.toList := heq ▸ List.mem_singleton_self '?'
  rw [toList_text_static] at hmem
  exact absurd (isDigit_of_mem_digits hmem) (by decide)

theorem text_injective {d e : Dim} (h : d.text = e.text) : d = e := by
  cases d with
  | static m =>
    cases e with
    | static n =>
      have hdigits := congrArg String.toList h
      rw [toList_text_static, toList_text_static] at hdigits
      rw [UInt64.toNat_inj.1 (delimited_digits.injective hdigits)]
    | dynamic => exact absurd h (digits_ne_dynamic m)
  | dynamic =>
    cases e with
    | static n => exact absurd h.symm (digits_ne_dynamic n)
    | dynamic => rfl

theorem delimited_text : Delimited (fun d : Dim => d.text.toList) isTextChar :=
  delimited_of_forall_mem (fun _ _ h => text_injective (String.toList_inj.1 h))
    fun _ _ => isTextChar_of_mem_text

theorem begins_text : Begins (fun d : Dim => d.text.toList) isTextChar := by
  intro d
  cases hd : d.text.toList with
  | nil =>
    cases d with
    | static e => exact absurd (toList_text_static e ▸ hd) Nat.toDigits_ne_nil
    | dynamic => exact absurd hd (List.cons_ne_nil _ _)
  | cons c rest =>
    exact ⟨c, rest, hd, isTextChar_of_mem_text (hd ▸ List.mem_cons_self)⟩

theorem toList_listText (ds : List Dim) :
    (listText ds).toList = [',', ' '].intercalate (ds.map fun d => d.text.toList) := by
  simp [listText, Function.comp_def]

/-- A list of dimensions ends at a closing bracket. -/
theorem delimited_listText : Delimited (fun ds => (listText ds).toList) (· != ']') := by
  have hbracket : ∀ c, (isTextChar c || c == ',') = true → (c != ']') = true :=
    bne_of_eq_false (by decide)
  have hfirst : Begins (fun d : Dim => d.text.toList) (· != ']') :=
    begins_text.mono fun c hc => hbracket c (Bool.or_eq_true_iff.2 (.inl hc))
  simp only [toList_listText]
  exact delimited_text.intercalate (by decide) hfirst hbracket

end Dim

/-! ## Shapes and tensors -/

theorem Shape.toList_text (s : Shape) :
    s.text.toList = ['['] ++ ((Dim.listText s.dims).toList ++ [']']) := by
  unfold text
  rw [String.toList_append, String.toList_append, List.append_assoc]
  rfl

theorem Shape.delimited_text : Delimited (fun s : Shape => s.text.toList) anything := by
  have hdims : Delimited (fun ds => ['['] ++ ((Dim.listText ds).toList ++ [']'])) anything :=
    (Dim.delimited_listText.before [] (by decide)).after ['[']
  intro a b s t hs ht heq
  simp only [Shape.toList_text] at heq
  obtain ⟨hab, hst⟩ := hdims hs ht heq
  exact ⟨congrArg Shape.mk hab, hst⟩

theorem ElementType.ne_bracket_of_mem_name {t : ElementType} :
    ∀ c ∈ t.name.toList, (c != '[') = true := by
  apply List.all_eq_true.1
  cases t <;> rfl

theorem ElementType.name_injective {t u : ElementType} (h : t.name = u.name) : t = u := by
  have hsome : some t = some u := by
    rw [← ofName?_name t, h, ofName?_name]
  exact Option.some.inj hsome

theorem ElementType.begins_name : Begins (fun t : ElementType => t.name.toList) Char.isAlpha := by
  intro t
  cases t <;> exact ⟨_, _, rfl, by decide⟩

theorem ElementType.delimited_name : Delimited (fun t : ElementType => t.name.toList) (· != '[') :=
  delimited_of_forall_mem (fun _ _ h => name_injective (String.toList_inj.1 h))
    fun _ => ne_bracket_of_mem_name

theorem TensorDesc.delimited_text : Delimited (fun x : TensorDesc => x.text.toList) anything := by
  have hparts : Delimited
      (fun x : TensorDesc => x.elementType.name.toList ++ x.shape.text.toList) anything := by
    refine ElementType.delimited_name.append Shape.delimited_text elementType shape
      (fun s rest _ => ?_) ?_
    · rw [Shape.toList_text]
      exact stops_cons.2 rfl
    · rintro ⟨s, t⟩ ⟨s', t'⟩ rfl rfl
      rfl
  simpa only [text, String.toList_append] using hparts

theorem TensorDesc.begins_text : Begins (fun x : TensorDesc => x.text.toList) Char.isAlpha := by
  have hname : Begins (fun x : TensorDesc => x.elementType.name.toList) Char.isAlpha := fun x =>
    ElementType.begins_name x.elementType
  simpa only [text, String.toList_append] using hname.append fun x => x.shape.text.toList

end PixelGraph
