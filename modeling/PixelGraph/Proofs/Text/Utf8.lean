-- SUMMARY: Texts in order by code point are in order by the bytes of their UTF-8 form.

/-!
# Texts as bytes

The first byte of a character in UTF-8 grows with the number of bytes, and the bytes carry the
code point from its highest digits on. So no order is lost: of two texts the one that is first
by code point is also first by bytes, where unsigned bytes are compared from the start and a
text comes before its continuations.
-/

namespace PixelGraph

/-- The bytes of a text in UTF-8. -/
def utf8 (s : String) : List UInt8 :=
  s.toUTF8.data.toList

theorem utf8_eq_flatMap (s : String) : utf8 s = s.toList.flatMap String.utf8EncodeChar := by
  change s.toByteArray.data.toList = _
  rw [← String.utf8Encode_toList]
  exact List.toList_data_toByteArray

/-! ## Order -/

theorem ofNat_cons_lt_iff {x y : Nat} (hx : x < UInt8.size) (hy : y < UInt8.size)
    {us vs : List UInt8} :
    UInt8.ofNat x :: us < UInt8.ofNat y :: vs ↔ x < y ∨ x = y ∧ us < vs := by
  rw [List.cons_lt_cons_iff, UInt8.ofNat_lt_iff_lt hx hy, ← UInt8.toNat_inj,
    UInt8.toNat_ofNat_of_lt' hx, UInt8.toNat_ofNat_of_lt' hy]

/-- Whatever follows two characters, their bytes decide. -/
theorem utf8EncodeChar_append_lt {c d : Char} (h : c < d) (us vs : List UInt8) :
    String.utf8EncodeChar c ++ us < String.utf8EncodeChar d ++ vs := by
  have hcode : c.val.toNat < d.val.toNat := h
  have hlast : d.val.toNat < 0x110000 := by
    rcases d.valid with hlow | hhigh
    · exact Nat.lt_trans hlow (by decide)
    · exact hhigh.2
  have hsize : UInt8.size = 256 := rfl
  -- Four bytes hold digits in base 64, each of them what the higher ones leave over.
  have hdigits : ∀ n < 0x110000,
      n / 64 / 64 = n / 4096 ∧ n / 4096 / 64 = n / 262144 ∧ n / 262144 % 8 = n / 262144 := by
    omega
  have hc := hdigits _ (Nat.lt_trans hcode hlast)
  have hd := hdigits _ hlast
  simp only [String.utf8EncodeChar]
  generalize c.val.toNat = v at *
  generalize d.val.toNat = w at *
  repeat' split
  -- The first character never has more bytes than the second.
  all_goals try omega
  -- If it has fewer, the first byte decides, and otherwise the first digit that is not the same.
  all_goals
    simp (disch := omega) only [List.cons_append, List.nil_append, ofNat_cons_lt_iff]
    omega

theorem flatMap_utf8EncodeChar_lt {cs ds : List Char} (h : cs < ds) :
    cs.flatMap String.utf8EncodeChar < ds.flatMap String.utf8EncodeChar := by
  induction h with
  | @nil d ds =>
    obtain ⟨b, bs, hbytes⟩ := List.exists_cons_of_ne_nil (String.utf8EncodeChar_ne_nil (c := d))
    rw [List.flatMap_nil, List.flatMap_cons, hbytes]
    exact List.nil_lt_cons b _
  | rel h =>
    rw [List.flatMap_cons, List.flatMap_cons]
    exact utf8EncodeChar_append_lt h _ _
  | cons h ih =>
    rw [List.flatMap_cons, List.flatMap_cons]
    exact List.append_left_lt ih

theorem utf8_lt_utf8 {s t : String} (h : s < t) : utf8 s < utf8 t := by
  rw [utf8_eq_flatMap, utf8_eq_flatMap]
  exact flatMap_utf8EncodeChar_lt h

end PixelGraph
