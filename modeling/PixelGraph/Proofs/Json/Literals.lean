-- SUMMARY: Numbers and quoted texts are read back as they were written.
import PixelGraph.Json.Number
import PixelGraph.Json.Text
import PixelGraph.Proofs.Text.Tensor

/-!
# Literals

A number is read back from its digits if nothing follows by which the literal could go on. A
quoted text is read back whatever follows, because its end is marked and every mark within it
is escaped.
-/

namespace PixelGraph.Json

variable {cs rest : List Char} {n : Nat}

/-! ## Numbers -/

/-- The characters by which a number literal could go on. -/
def continuesNumber (c : Char) : Bool :=
  c.isDigit || c == '.' || c == 'e' || c == 'E'

/-- Only zero itself begins with a zero. -/
theorem eq_nil_of_toDigits_eq_zero_cons {ds : List Char} (h : Nat.toDigits 10 n = '0' :: ds) :
    ds = [] := by
  induction n using Nat.strongRecOn generalizing ds with
  | ind n ih =>
    by_cases hn : n < 10
    case pos =>
      rw [Nat.toDigits_of_lt_base hn] at h
      exact (List.cons.inj h).2.symm
    case neg =>
      rw [Nat.toDigits_of_base_le (by decide) (Nat.not_lt.1 hn)] at h
      cases hfront : Nat.toDigits 10 (n / 10) with
      | nil => exact absurd hfront Nat.toDigits_ne_nil
      | cons c front =>
        rw [hfront] at h
        obtain rfl : c = '0' := (List.cons.inj h).1
        obtain rfl := ih (n / 10) (by omega) hfront
        -- The leading digits make a number that is not zero.
        have hzero : n / 10 = 0 := by
          rw [← Nat.ofDigitChars_ten_toDigits (n := n / 10), hfront]
          rfl
        omega

theorem scanDigits_toDigits (hrest : Stops Char.isDigit rest) :
    scanDigits (Nat.toDigits 10 n ++ rest) = some (Nat.toDigits 10 n, rest) := by
  have hdigits : ∀ c ∈ Nat.toDigits 10 n, c.isDigit = true := fun c hc => isDigit_of_mem_digits hc
  unfold scanDigits
  rw [takeWhile_append_of_stops hdigits hrest, dropWhile_append_of_stops hdigits hrest]
  split
  case h_1 hnil => exact absurd hnil Nat.toDigits_ne_nil
  case h_2 => rfl

theorem scanNatural_toDigits (hrest : Stops Char.isDigit rest) :
    scanNatural (Nat.toDigits 10 n ++ rest) = some (n, rest) := by
  unfold scanNatural
  rw [scanDigits_toDigits hrest, Option.bind_eq_bind, Option.bind_some]
  split
  case h_1 heq =>
    have hzero := (Prod.mk.inj heq).1
    exact absurd (eq_nil_of_toDigits_eq_zero_cons hzero) (List.cons_ne_nil _ _)
  case h_2 heq =>
    obtain ⟨rfl, rfl⟩ := Prod.mk.inj heq
    rw [Nat.ofDigitChars_ten_toDigits]
    rfl

theorem scanFraction_of_stops (hrest : Stops continuesNumber rest) :
    scanFraction rest = some (false, rest) := by
  unfold scanFraction
  split
  case h_1 => exact absurd (stops_cons.1 hrest) (by decide)
  case h_2 => rfl

theorem scanExponent_of_stops (hrest : Stops continuesNumber rest) :
    scanExponent rest = some (false, rest) := by
  cases rest with
  | nil => rfl
  | cons c rest =>
    have hc : ¬(c = 'e' ∨ c = 'E') := by
      rintro (rfl | rfl)
      · exact absurd (stops_cons.1 hrest) (by decide)
      · exact absurd (stops_cons.1 hrest) (by decide)
    rw [scanExponent, if_neg hc]

theorem scanUnsigned_toDigits (hrest : Stops continuesNumber rest) :
    scanUnsigned (Nat.toDigits 10 n ++ rest) = some (some n, rest) := by
  have hdigits : Stops Char.isDigit rest := hrest.mono fun c hc => by simp [continuesNumber, hc]
  unfold scanUnsigned
  rw [scanNatural_toDigits hdigits]
  change (scanFraction rest >>= _) = _
  rw [scanFraction_of_stops hrest]
  change (scanExponent rest >>= _) = _
  rw [scanExponent_of_stops hrest]
  rfl

theorem scanNumber_toDigits (hrest : Stops continuesNumber rest) :
    scanNumber (Nat.toDigits 10 n ++ rest) = some (some n, rest) := by
  unfold scanNumber
  split
  case h_1 heq =>
    -- A sign is no digit.
    obtain ⟨c, cs, hdigits, hc⟩ := begins_digits n
    rw [hdigits] at heq
    exact absurd (List.cons.inj heq).1 (ne_of_eq_false hc rfl)
  case h_2 => exact scanUnsigned_toDigits hrest

/-! ## Quoted text -/

theorem hexValue?_digitChar (hn : n < 16) : hexValue? (Nat.digitChar n) = some n := by
  have hall : ∀ m < 16, hexValue? (Nat.digitChar m) = some m := by decide
  exact hall n hn

theorem codeUnit?_control (hn : n < 0x20) :
    codeUnit? '0' '0' (Nat.digitChar (n / 16)) (Nat.digitChar (n % 16)) = some n := by
  have hhigh : hexValue? (Nat.digitChar (n / 16)) = some (n / 16) := hexValue?_digitChar (by omega)
  have hlow : hexValue? (Nat.digitChar (n % 16)) = some (n % 16) := hexValue?_digitChar (by omega)
  have hzero : hexValue? '0' = some 0 := by decide
  unfold codeUnit?
  rw [hhigh, hlow, hzero]
  change some (((0 * 16 + 0) * 16 + n / 16) * 16 + n % 16) = some n
  congr 1
  omega

/-- A piece of a quoted text stands for a character if it does so before any other pieces. -/
def Piece.StandsFor (p : Piece) (c : Char) : Prop :=
  ∀ ps, charsOf? (p :: ps) = (charsOf? ps).map (c :: ·)

theorem Piece.StandsFor.char (c : Char) : (Piece.char c).StandsFor c := fun _ => rfl

theorem Piece.StandsFor.unit {c : Char} (hc : c.toNat < 0x20) : (Piece.unit c.toNat).StandsFor c := by
  intro ps
  have hhigh : isHighSurrogate c.toNat = false := by
    simp [isHighSurrogate]
    omega
  have hlow : isLowSurrogate c.toNat = false := by
    simp [isLowSurrogate]
    omega
  rw [charsOf?.eq_def]
  simp [hhigh, hlow, Char.ofNat_toNat]

theorem pieces_escaped {e c : Char} {ps : List Piece} (he : unescape? e = some c)
    (hps : pieces cs = some (ps, rest)) :
    pieces ('\\' :: e :: cs) = some (.char c :: ps, rest) := by
  rw [pieces, he, hps]
  · rfl
  · rintro _ _ _ _ _ rfl
    cases he

theorem pieces_control {c : Char} {ps : List Piece} (hc : c.toNat < 0x20)
    (hps : pieces cs = some (ps, rest)) :
    pieces ('\\' :: 'u' :: '0' :: '0' :: Nat.digitChar (c.toNat / 16) ::
      Nat.digitChar (c.toNat % 16) :: cs) = some (.unit c.toNat :: ps, rest) := by
  rw [pieces, codeUnit?_control hc, hps]
  rfl

theorem pieces_plain {c : Char} {ps : List Piece} (hquote : c ≠ '"') (hbackslash : c ≠ '\\')
    (hc : ¬ c.toNat < 0x20) (hps : pieces cs = some (ps, rest)) :
    pieces (c :: cs) = some (.char c :: ps, rest) := by
  rw [pieces, if_neg hc, hps]
  · rfl
  · exact hquote
  · exact fun _ _ _ _ _ h _ => hbackslash h
  · exact fun _ _ h _ => hbackslash h

/-- A character that is written is read as one piece. -/
theorem exists_piece (c : Char) :
    ∃ p : Piece, p.StandsFor c ∧ ∀ {cs rest ps}, pieces cs = some (ps, rest) →
      pieces (escape c ++ cs) = some (p :: ps, rest) := by
  unfold escape
  split
  case h_1 => exact ⟨_, .char _, pieces_escaped rfl⟩
  case h_2 => exact ⟨_, .char _, pieces_escaped rfl⟩
  case h_3 => exact ⟨_, .char _, pieces_escaped rfl⟩
  case h_4 => exact ⟨_, .char _, pieces_escaped rfl⟩
  case h_5 => exact ⟨_, .char _, pieces_escaped rfl⟩
  case h_6 => exact ⟨_, .char _, pieces_escaped rfl⟩
  case h_7 => exact ⟨_, .char _, pieces_escaped rfl⟩
  case h_8 hquote hbackslash _ _ _ _ _ =>
    split
    case isTrue hc => exact ⟨_, .unit hc, pieces_control hc⟩
    case isFalse hc => exact ⟨_, .char c, pieces_plain hquote hbackslash hc⟩

/-- A text that is written is read up to its closing mark, character by character. -/
theorem exists_pieces (cs rest : List Char) :
    ∃ ps, pieces (cs.flatMap escape ++ '"' :: rest) = some (ps, rest) ∧ charsOf? ps = some cs := by
  induction cs with
  | nil => exact ⟨[], rfl, rfl⟩
  | cons c cs ih =>
    obtain ⟨ps, hps, hchars⟩ := ih
    obtain ⟨p, hstands, hp⟩ := exists_piece c
    refine ⟨p :: ps, ?_, ?_⟩
    · rw [List.flatMap_cons, List.append_assoc]
      exact hp hps
    · rw [hstands, hchars]
      rfl

theorem scanText_quote (s : String) (rest : List Char) :
    scanText (s.toList.flatMap escape ++ '"' :: rest) = some (some s, rest) := by
  obtain ⟨ps, hps, hchars⟩ := exists_pieces s.toList rest
  unfold scanText
  rw [hps]
  change some ((charsOf? ps).map String.ofList, rest) = _
  rw [hchars]
  change some (some (String.ofList s.toList), rest) = _
  rw [String.ofList_toList]

end PixelGraph.Json
