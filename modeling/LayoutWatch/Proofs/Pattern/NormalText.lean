import LayoutWatch.Proofs.Pattern.Text

/-!
# The normal form of the text of a pattern

A pattern has one text, and this text is read as the pattern. Any other text that is read as it
has the same tokens, each of which may be spelled differently: a wildcard as a single question
mark, a byte with digits in lower case, and any white space between them. Writing down what was
read brings all of them to the one text.
-/

namespace LayoutWatch.Text

/-- A character that is read as a digit is one of ASCII. -/
theorem toNat_lt_of_hexValue? {c : Char} {value : Nat} (h : hexValue? c = some value) :
    c.toNat < 128 := by
  have hdigits : ('9' : Char).toNat < 128 ∧ ('f' : Char).toNat < 128 ∧
      ('F' : Char).toNat < 128 := by decide
  rw [hexValue?] at h
  split at h
  · next hdigit => exact Nat.lt_of_le_of_lt hdigit.2 hdigits.1
  · split at h
    · next hlower => exact Nat.lt_of_le_of_lt hlower.2 hdigits.2.1
    · split at h
      · next hupper => exact Nat.lt_of_le_of_lt hupper.2 hdigits.2.2
      · cases h

/-- A hexadecimal digit of either case is the digit of its value, in upper case. -/
theorem digitChar_of_hexValue? {c : Char} {value : Nat} (h : hexValue? c = some value) :
    value < 16 ∧ value.digitChar.toUpper = c.toUpper := by
  have hall : ∀ n < 128, ∀ value ∈ hexValue? (Char.ofNat n),
      value < 16 ∧ value.digitChar.toUpper = (Char.ofNat n).toUpper := by decide
  have hchar : Char.ofNat c.toNat = c := Char.ofNat_toNat c
  have hvalue := hall c.toNat (toNat_lt_of_hexValue? h) value
  rw [hchar] at hvalue
  exact hvalue h

end LayoutWatch.Text

namespace LayoutWatch.Pattern

/-- The normal form of a token: a wildcard has two question marks, and digits are in upper case. -/
def normalToken (token : List Char) : List Char :=
  if token = ['?'] then ['?', '?'] else token.map Char.toUpper

/-- The text with the tokens of a text in normal form, one blank between them. -/
def normalText (t : String) : String :=
  String.ofList ([' '].intercalate ((Text.words t.toList).map normalToken))

/-- A token is read as a cell whose own token is the normal form of the token. -/
theorem toList_text_of_cell? {token : List Char} {c : Cell} (h : cell? token = some c) :
    c.text.toList = normalToken token := by
  unfold cell? at h
  split at h
  · cases h
    rfl
  · cases h
    rfl
  · next a b _ =>
    obtain ⟨high, hhigh, h⟩ := Option.bind_eq_some_iff.mp h
    obtain ⟨low, hlow, h⟩ := Option.bind_eq_some_iff.mp h
    cases h
    obtain ⟨hhighLt, hhighChar⟩ := Text.digitChar_of_hexValue? hhigh
    obtain ⟨hlowLt, hlowChar⟩ := Text.digitChar_of_hexValue? hlow
    have hfits : 16 * high + low < UInt8.size := by
      rw [UInt8.size]
      omega
    have hbyte : (UInt8.ofNat (16 * high + low)).toNat = 16 * high + low :=
      UInt8.toNat_ofNat_of_lt' hfits
    have hfirst : (16 * high + low) / 16 = high := by omega
    have hsecond : (16 * high + low) % 16 = low := by omega
    rw [Cell.toList_text_fixed, hbyte, hfirst, hsecond, hhighChar, hlowChar, normalToken,
      if_neg (by simp)]
    rfl
  · cases h

/-- Tokens that are read as cells have the tokens of these cells as their normal forms. -/
theorem map_normalToken_of_ofTokens {tokens : List (List Char)} {position : Nat} {p : Pattern}
    (h : ofTokens position tokens = .ok p) :
    tokens.map normalToken = p.map fun c => c.text.toList := by
  induction tokens generalizing position p with
  | nil =>
    cases h
    rfl
  | cons token rest ih =>
    rw [ofTokens] at h
    split at h
    · cases h
    · next c hc =>
      cases hrest : ofTokens (position + 1) rest with
      | error fault =>
        rw [hrest] at h
        cases h
      | ok cells =>
        rw [hrest] at h
        cases h
        rw [List.map_cons, List.map_cons, ← ih hrest, toList_text_of_cell? hc]

/-- A text that is read has a token, and its tokens are read. -/
theorem parse_eq_ok_iff {t : String} {p : Pattern} :
    parse t = .ok p ↔ Text.words t.toList ≠ [] ∧ ofTokens 0 (Text.words t.toList) = .ok p := by
  rw [parse]
  cases Text.words t.toList with
  | nil => simp
  | cons token rest => simp

/-- A pattern that was read has a cell. -/
theorem ne_nil_of_parse {t : String} {p : Pattern} (h : parse t = .ok p) : p ≠ [] := by
  obtain ⟨hwords, htokens⟩ := parse_eq_ok_iff.mp h
  have hlength := congrArg List.length (map_normalToken_of_ofTokens htokens)
  rw [List.length_map, List.length_map] at hlength
  intro hp
  rw [hp, List.length_nil] at hlength
  exact hwords (List.length_eq_zero_iff.mp hlength)

/-- The text of a pattern that was read is the normal form of what it was read from. -/
theorem text_of_parse {t : String} {p : Pattern} (h : parse t = .ok p) :
    p.text = normalText t := by
  obtain ⟨-, htokens⟩ := parse_eq_ok_iff.mp h
  have htext : p.text.toList = [' '].intercalate (p.map fun c => c.text.toList) := by
    rw [text, String.toList_intercalate, List.map_map]
    rfl
  rw [normalText, map_normalToken_of_ofTokens htokens, ← htext, String.ofList_toList]

/-- A pattern with at least one cell, however it was made, is read from its text with the same
bytes left open and the same bytes fixed. What is read from any text is written in the normal form
of that text, and writing it once more changes nothing. -/
theorem text_roundTrips :
    (∀ p : Pattern, p ≠ [] → parse p.text = .ok p) ∧
      ∀ (t : String) (p : Pattern), parse t = .ok p →
        p.text = normalText t ∧ parse p.text = .ok p ∧ normalText p.text = p.text := by
  refine ⟨fun p hne => parse_text hne, fun t p h => ?_⟩
  have hread : parse p.text = .ok p := parse_text (ne_nil_of_parse h)
  exact ⟨text_of_parse h, hread, (text_of_parse hread).symm⟩

/-- A text with a tab, a digit in lower case and a single question mark is brought to the normal
form. -/
theorem text_roundTrips_spelled :
    parse "48\t8b ?" = .ok [.fixed 0x48, .fixed 0x8B, .wildcard] ∧
      text [.fixed 0x48, .fixed 0x8B, .wildcard] = normalText "48\t8b ?" ∧
      normalText "48\t8b ?" = "48 8B ??" ∧
      parse "48 8B ??" = .ok [.fixed 0x48, .fixed 0x8B, .wildcard] := by
  have hwords : Text.words "48\t8b ?".toList = [['4', '8'], ['8', 'b'], ['?']] := by
    decide +kernel
  have hspelled : parse "48\t8b ?" = .ok [.fixed 0x48, .fixed 0x8B, .wildcard] := by
    rw [parse_eq_ok_iff, hwords]
    exact ⟨by simp, rfl⟩
  have hnormal : normalText "48\t8b ?" = "48 8B ??" := by decide +kernel
  obtain ⟨htext, -, -⟩ := text_roundTrips.2 _ _ hspelled
  have hread := text_roundTrips.1 [.fixed 0x48, .fixed 0x8B, .wildcard] (by simp)
  rw [htext, hnormal] at hread
  exact ⟨hspelled, htext, hnormal, hread⟩

end LayoutWatch.Pattern
