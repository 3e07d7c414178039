import LayoutWatch.Pattern.Basic

/-!
# The text of a pattern reads back

Tokens that hold no white space are found again between single blanks, and the token of a cell
stands for that cell. So the text of a pattern with at least one cell is read as the pattern
itself, whatever its cells are. Stored signatures rest on this.
-/

namespace LayoutWatch.Text

/-- The words of a text by its first two characters. -/
theorem words_cons (c : Char) (rest : List Char) :
    words (c :: rest) =
      if isBlank c then words rest
      else
        match rest, words rest with
        | d :: _, word :: more => if isBlank d then [c] :: word :: more else (c :: word) :: more
        | _, more => [c] :: more := rfl

/-- A blank belongs to no word. -/
theorem words_blank {b : Char} (hb : isBlank b = true) (rest : List Char) :
    words (b :: rest) = words rest := by
  rw [words_cons, if_pos hb]

/-- A word in front of a blank is the first word of a text. -/
theorem words_append_blank {word : List Char} (hne : word ≠ [])
    (hw : ∀ c ∈ word, isBlank c = false) {b : Char} (hb : isBlank b = true) (rest : List Char) :
    words (word ++ b :: rest) = word :: words rest := by
  induction word with
  | nil => exact absurd rfl hne
  | cons c tail ih =>
    have hc : isBlank c = false := hw c (by simp)
    cases tail with
    | nil =>
      rw [List.singleton_append, words_cons, words_blank hb]
      cases words rest <;> simp [hc, hb]
    | cons d tail =>
      have hd : isBlank d = false := hw d (by simp)
      have htail := ih (by simp) (fun a ha => hw a (List.mem_cons_of_mem c ha))
      rw [List.cons_append, words_cons, htail]
      simp [hc, hd]

/-- A text without a blank is one word. -/
theorem words_eq_singleton {word : List Char} (hne : word ≠ [])
    (hw : ∀ c ∈ word, isBlank c = false) : words word = [word] := by
  induction word with
  | nil => exact absurd rfl hne
  | cons c tail ih =>
    have hc : isBlank c = false := hw c (by simp)
    cases tail with
    | nil =>
      rw [words_cons, hc]
      rfl
    | cons d tail =>
      have hd : isBlank d = false := hw d (by simp)
      have htail := ih (by simp) (fun a ha => hw a (List.mem_cons_of_mem c ha))
      rw [words_cons, htail]
      simp [hc, hd]

/-- Words with one blank between them are found again. -/
theorem words_intercalate {tokens : List (List Char)} (hne : ∀ t ∈ tokens, t ≠ [])
    (hw : ∀ t ∈ tokens, ∀ c ∈ t, isBlank c = false) :
    words ([' '].intercalate tokens) = tokens := by
  induction tokens with
  | nil => rfl
  | cons token rest ih =>
    have htoken := hne token (by simp)
    have hblank := hw token (by simp)
    cases rest with
    | nil =>
      rw [List.intercalate_singleton]
      exact words_eq_singleton htoken hblank
    | cons next rest =>
      rw [List.intercalate_cons_cons, List.append_assoc, List.singleton_append,
        words_append_blank htoken hblank (by decide),
        ih (fun t ht => hne t (by simp [ht])) (fun t ht => hw t (by simp [ht]))]

/-- A hexadecimal digit in upper case is read as its value and is no white space. -/
theorem digit_upper {d : Nat} (hd : d < 16) :
    hexValue? d.digitChar.toUpper = some d ∧ isBlank d.digitChar.toUpper = false := by
  revert d
  decide

/-- The two digits of a byte. -/
@[simp] theorem toList_byteDigits (b : UInt8) :
    (byteDigits b).toList = [(b.toNat / 16).digitChar, (b.toNat % 16).digitChar] := by
  have hb := b.toNat_lt
  simp only [byteDigits, padLeft, hexDigits, String.toList_append, String.toList_ofList,
    String.length_ofList]
  by_cases h : b.toNat < 16
  · rw [Nat.toDigits_of_lt_base h, Nat.div_eq_of_lt h, Nat.mod_eq_of_lt h]
    rfl
  · rw [Nat.toDigits_of_base_le (by decide) (by omega),
      Nat.toDigits_of_lt_base (by omega : b.toNat / 16 < 16)]
    rfl

end LayoutWatch.Text

namespace LayoutWatch.Pattern

/-- The characters of a fixed byte: its two digits in upper case. -/
@[simp] theorem Cell.toList_text_fixed (b : UInt8) :
    (Cell.text (.fixed b)).toList =
      [(b.toNat / 16).digitChar.toUpper, (b.toNat % 16).digitChar.toUpper] := by
  simp [Cell.text, String.toList_map]

/-- Two characters stand for a byte, unless the first of them is a question mark. -/
theorem cell?_pair {a b : Char} {high low : Nat} (ha : Text.hexValue? a = some high)
    (hb : Text.hexValue? b = some low) :
    cell? [a, b] = some (.fixed (UInt8.ofNat (16 * high + low))) := by
  have hmark : a ≠ '?' := by
    rintro rfl
    exact absurd (ha.symm.trans (by decide : Text.hexValue? '?' = none)) (by simp)
  unfold cell?
  split
  · next heq => simp at heq
  · next heq => exact absurd (List.cons.inj heq).1 hmark
  · next heq =>
    simp only [List.cons.injEq, and_true] at heq
    rw [← heq.1, ← heq.2, ha, hb]
    rfl
  · next hpair => exact absurd rfl (hpair a b)

/-- The token of a cell stands for that cell. -/
@[simp] theorem cell?_text (c : Cell) : cell? c.text.toList = some c := by
  cases c with
  | wildcard => rfl
  | fixed b =>
    have hb := b.toNat_lt
    have hhigh := (Text.digit_upper (by omega : b.toNat / 16 < 16)).1
    have hlow := (Text.digit_upper (by omega : b.toNat % 16 < 16)).1
    have hvalue : 16 * (b.toNat / 16) + b.toNat % 16 = b.toNat := by omega
    rw [Cell.toList_text_fixed, cell?_pair hhigh hlow, hvalue, UInt8.ofNat_toNat]

/-- The token of a cell is not empty and holds no white space. -/
theorem Cell.text_isWord (c : Cell) :
    c.text.toList ≠ [] ∧ ∀ a ∈ c.text.toList, Text.isBlank a = false := by
  cases c with
  | wildcard =>
    have htext : (Cell.text .wildcard).toList = ['?', '?'] := rfl
    have hmark : Text.isBlank '?' = false := by decide
    simp [htext, hmark]
  | fixed b =>
    have hb := b.toNat_lt
    have hhigh := (Text.digit_upper (by omega : b.toNat / 16 < 16)).2
    have hlow := (Text.digit_upper (by omega : b.toNat % 16 < 16)).2
    rw [Cell.toList_text_fixed]
    simp [hhigh, hlow]

/-- The tokens of cells are read as these cells, from any index on. -/
@[simp] theorem ofTokens_text (p : Pattern) (position : Nat) :
    ofTokens position (p.map fun c => c.text.toList) = .ok p := by
  induction p generalizing position with
  | nil => rfl
  | cons c rest ih =>
    rw [List.map_cons, ofTokens, cell?_text]
    dsimp only
    rw [ih]
    rfl

/-- The words of the text of a pattern are the tokens of its cells. -/
@[simp] theorem words_text (p : Pattern) :
    Text.words p.text.toList = p.map fun c => c.text.toList := by
  have htokens : p.text.toList = [' '].intercalate (p.map fun c => c.text.toList) := by
    rw [text, String.toList_intercalate, List.map_map]
    rfl
  rw [htokens]
  apply Text.words_intercalate
  · intro token htoken
    obtain ⟨c, -, rfl⟩ := List.mem_map.mp htoken
    exact c.text_isWord.1
  · intro token htoken
    obtain ⟨c, -, rfl⟩ := List.mem_map.mp htoken
    exact c.text_isWord.2

/-- The text of a pattern with at least one cell is read as the pattern. -/
theorem parse_text {p : Pattern} (hne : p ≠ []) : parse p.text = .ok p := by
  have htokens := ofTokens_text p 0
  cases p with
  | nil => exact absurd rfl hne
  | cons c rest =>
    rw [parse, words_text]
    simpa only [List.map_cons] using htokens

end LayoutWatch.Pattern
