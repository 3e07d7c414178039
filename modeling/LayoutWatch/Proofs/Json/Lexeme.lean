import LayoutWatch.Json.Lexeme

/-!
# Strings are read back

The written form of a text stands for this text, whatever its characters are.
-/

namespace LayoutWatch.Json

/-- A character is written behind a backslash by a short name or by its number, or as it is. -/
theorem escapeChar_cases (c : Char) :
    (∃ short, shortEscape? short = some c ∧ short ≠ 'u' ∧ escapeChar c = ['\\', short]) ∨
    (c.toNat < 0x20 ∧
      escapeChar c = ['\\', 'u', '0', '0', unitDigit (c.toNat / 16), unitDigit c.toNat]) ∨
    (c ≠ '"' ∧ c ≠ '\\' ∧ ¬c.toNat < 0x20 ∧ escapeChar c = [c]) := by
  fun_cases escapeChar c
  case case1 => exact .inl ⟨'"', rfl, by decide, rfl⟩
  case case2 => exact .inl ⟨'\\', rfl, by decide, rfl⟩
  case case3 => exact .inl ⟨'b', rfl, by decide, rfl⟩
  case case4 => exact .inl ⟨'t', rfl, by decide, rfl⟩
  case case5 => exact .inl ⟨'n', rfl, by decide, rfl⟩
  case case6 => exact .inl ⟨'f', rfl, by decide, rfl⟩
  case case7 => exact .inl ⟨'r', rfl, by decide, rfl⟩
  case case8 hcontrol => exact .inr (.inl ⟨hcontrol, rfl⟩)
  case case9 hquote hbackslash _ _ _ _ _ hplain =>
    exact .inr (.inr ⟨hquote, hbackslash, hplain, rfl⟩)

/-- The number of a control character is read back from its digits. -/
theorem unit?_unitDigits :
    ∀ n < 0x20, unit? '0' '0' (unitDigit (n / 16)) (unitDigit n) = some n := by decide

/-- The written form of a character stands for the character. -/
theorem unescape?_escapeChar (c : Char) (rest : List Char) :
    unescape? (escapeChar c ++ rest) = (unescape? rest).map (c :: ·) := by
  rcases escapeChar_cases c with ⟨short, hshort, hne, htext⟩ | ⟨hcontrol, htext⟩ |
    ⟨-, hne, -, htext⟩
  · rw [htext, List.cons_append, List.singleton_append, unescape?, hshort]
    · rfl
    · simp [hne]
  · have hunit := unit?_unitDigits c.toNat hcontrol
    have hhigh : isHighHalf c.toNat = false := by
      rw [isHighHalf, decide_eq_false (by omega), Bool.false_and]
    have hlow : isLowHalf c.toNat = false := by
      rw [isLowHalf, decide_eq_false (by omega), Bool.false_and]
    simp [htext, unescape?, hunit, hhigh, hlow]
  · rw [htext, List.singleton_append, unescape?, if_neg hne]
    · simp [hne]
    · simp [hne]

/-- The written form of a text stands for the text. -/
@[simp] theorem unescape?_escape (text : List Char) : unescape? (escape text) = some text := by
  induction text with
  | nil => rfl
  | cons c rest ih =>
    rw [escape, List.flatMap_cons, unescape?_escapeChar, ← escape, ih]
    rfl

end LayoutWatch.Json
