import LayoutWatch.Proofs.Pattern.NormalText
import Mathlib.Data.List.Forall2

/-!
# The grammar of patterns

The text of a pattern is a sequence of tokens with white space between them: one question mark or
two for an open byte, two hexadecimal digits of either case for a fixed one. Reading accepts the
texts of this grammar and no others. What it refuses has no token, or has a first one that is
neither of the two.
-/

namespace LayoutWatch.Text

/-- The code points with the property White_Space. -/
def whiteSpace : List Nat :=
  [0x09, 0x0A, 0x0B, 0x0C, 0x0D, 0x20, 0x85, 0xA0, 0x1680, 0x2000, 0x2001, 0x2002, 0x2003, 0x2004,
    0x2005, 0x2006, 0x2007, 0x2008, 0x2009, 0x200A, 0x2028, 0x2029, 0x202F, 0x205F, 0x3000]

/-- The text is made of these words, with white space between them and around them. -/
inductive Separates : List Char → List (List Char) → Prop
  /-- Nothing has no words. -/
  | nothing : Separates [] []
  /-- White space in front of a text adds no word. -/
  | gap {c : Char} {rest : List Char} {words : List (List Char)} (hgap : c.toNat ∈ whiteSpace)
      (hrest : Separates rest words) : Separates (c :: rest) words
  /-- A word may stand at the end. -/
  | last {word : List Char} (hne : word ≠ []) (hword : ∀ c ∈ word, c.toNat ∉ whiteSpace) :
      Separates word [word]
  /-- Anywhere else white space follows it. -/
  | word {word rest : List Char} {c : Char} {words : List (List Char)} (hne : word ≠ [])
      (hword : ∀ c ∈ word, c.toNat ∉ whiteSpace) (hgap : c.toNat ∈ whiteSpace)
      (hrest : Separates rest words) : Separates (word ++ c :: rest) (word :: words)

/-- The blanks are the characters of white space. -/
theorem isBlank_iff {c : Char} : isBlank c = true ↔ c.toNat ∈ whiteSpace := by
  simp only [isBlank, whiteSpace, Bool.or_eq_true, Bool.and_eq_true, decide_eq_true_eq, beq_iff_eq,
    List.mem_cons, List.not_mem_nil, or_false]
  omega

/-- Every other character belongs to a word. -/
theorem isBlank_eq_false_iff {c : Char} : isBlank c = false ↔ c.toNat ∉ whiteSpace := by
  rw [← isBlank_iff, Bool.not_eq_true]

variable {text : List Char} {words' : List (List Char)}

/-- The words that make up a text are those that are read from it. -/
theorem Separates.words_eq (h : Separates text words') : words text = words' := by
  induction h with
  | nothing => rfl
  | gap hgap hrest ih => rw [words_blank (isBlank_iff.mpr hgap), ih]
  | last hne hword =>
    exact words_eq_singleton hne fun c hc => isBlank_eq_false_iff.mpr (hword c hc)
  | word hne hword hgap hrest ih =>
    have hletters := fun c hc => isBlank_eq_false_iff.mpr (hword c hc)
    rw [words_append_blank hne hletters (isBlank_iff.mpr hgap), ih]

/-- Every text is made of words and white space. -/
theorem exists_separates (text : List Char) : ∃ words, Separates text words := by
  induction text with
  | nil => exact ⟨[], .nothing⟩
  | cons c rest ih =>
    rcases ih with ⟨words, hrest⟩
    by_cases hgap : c.toNat ∈ whiteSpace
    · exact ⟨words, .gap hgap hrest⟩
    · have hletter : ∀ d ∈ [c], d.toNat ∉ whiteSpace := fun d hd =>
        List.mem_singleton.mp hd ▸ hgap
      -- The character begins a word, or it is put in front of the word that the rest begins with.
      cases hrest with
      | nothing => exact ⟨[[c]], .last (List.cons_ne_nil _ _) hletter⟩
      | gap hblank hbehind => exact ⟨_, .word (List.cons_ne_nil _ _) hletter hblank hbehind⟩
      | last hne hword =>
        exact ⟨_, .last (List.cons_ne_nil _ _) (List.forall_mem_cons.mpr ⟨hgap, hword⟩)⟩
      | word hne hword hblank hbehind =>
        exact ⟨_, .word (List.cons_ne_nil _ _) (List.forall_mem_cons.mpr ⟨hgap, hword⟩) hblank
          hbehind⟩

/-- A text is made of the words that are read from it and of no others. -/
theorem separates_iff : Separates text words' ↔ words' = words text := by
  constructor
  · intro h
    exact h.words_eq.symm
  · intro h
    have hsome := exists_separates text
    rcases hsome with ⟨found, hfound⟩
    rw [h, hfound.words_eq]
    exact hfound

/-- The character is the hexadecimal digit of a value, in either case. -/
def IsHexDigit (c : Char) (value : Nat) : Prop :=
  value < 16 ∧ (c = value.digitChar ∨ c = value.digitChar.toUpper)

/-- The digits are read with their values, and no other character is read as one. -/
theorem hexValue?_eq_some_iff {c : Char} {value : Nat} :
    hexValue? c = some value ↔ IsHexDigit c value := by
  constructor
  · intro h
    have hall : ∀ n < 128, ∀ value ∈ hexValue? (Char.ofNat n), value < 16 ∧
        (Char.ofNat n = value.digitChar ∨ Char.ofNat n = value.digitChar.toUpper) := by decide
    have hvalue := hall c.toNat (toNat_lt_of_hexValue? h) value
    rw [Char.ofNat_toNat] at hvalue
    exact hvalue h
  · intro h
    have hall : ∀ value < 16, hexValue? value.digitChar = some value ∧
        hexValue? value.digitChar.toUpper = some value := by decide
    have hread := hall value h.1
    rcases h.2 with hlower | hupper
    · rw [hlower]
      exact hread.1
    · rw [hupper]
      exact hread.2

end LayoutWatch.Text

namespace LayoutWatch.Pattern

/-- The token stands for a position of a pattern, with this byte and with a mark that tells whether
the byte is compared. -/
inductive Spells : List Char → UInt8 → Bool → Prop
  /-- A question mark leaves the byte open. -/
  | mark : Spells ['?'] 0 false
  /-- Two of them do the same. -/
  | marks : Spells ['?', '?'] 0 false
  /-- Two digits fix the byte. -/
  | digits {a b : Char} {high low : Nat} (ha : Text.IsHexDigit a high)
      (hb : Text.IsHexDigit b low) : Spells [a, b] (UInt8.ofNat (16 * high + low)) true

/-- The word is a token of the grammar. -/
def IsToken (token : List Char) : Prop := ∃ byte fixed, Spells token byte fixed

variable {token : List Char} {c : Cell}

/-- A cell is known by its byte and by its mark. -/
theorem Cell.eq_of_byte_of_isFixed {d : Cell} (hbyte : c.byte = d.byte)
    (hmark : c.isFixed = d.isFixed) : c = d := by
  cases c with
  | wildcard =>
    cases d with
    | wildcard => rfl
    | fixed b => exact absurd hmark (by simp [Cell.isFixed])
  | fixed a =>
    cases d with
    | wildcard => exact absurd hmark (by simp [Cell.isFixed])
    | fixed b => exact congrArg Cell.fixed hbyte

/-- What a token stands for is read from it. -/
theorem Spells.exists_cell {byte : UInt8} {fixed : Bool} (h : Spells token byte fixed) :
    ∃ c, cell? token = some c ∧ c.byte = byte ∧ c.isFixed = fixed := by
  cases h with
  | mark => exact ⟨.wildcard, rfl, rfl, rfl⟩
  | marks => exact ⟨.wildcard, rfl, rfl, rfl⟩
  | digits ha hb =>
    have hread := cell?_pair (Text.hexValue?_eq_some_iff.mpr ha)
      (Text.hexValue?_eq_some_iff.mpr hb)
    exact ⟨_, hread, rfl, rfl⟩

/-- What is read from a token is what it stands for. -/
theorem spells_of_cell? (h : cell? token = some c) : Spells token c.byte c.isFixed := by
  unfold cell? at h
  split at h
  · cases h
    exact .mark
  · cases h
    exact .marks
  · obtain ⟨high, hhigh, h⟩ := Option.bind_eq_some_iff.mp h
    obtain ⟨low, hlow, h⟩ := Option.bind_eq_some_iff.mp h
    cases h
    exact .digits (Text.hexValue?_eq_some_iff.mp hhigh) (Text.hexValue?_eq_some_iff.mp hlow)
  · cases h

/-- A token is read as the cell that it stands for and as no other. -/
theorem cell?_eq_some_iff : cell? token = some c ↔ Spells token c.byte c.isFixed := by
  constructor
  · exact spells_of_cell?
  · intro h
    have hread := h.exists_cell
    rcases hread with ⟨d, hd, hbyte, hmark⟩
    rw [hd, Cell.eq_of_byte_of_isFixed hbyte hmark]

/-- The tokens of the grammar are the words that are read. -/
theorem isToken_iff : IsToken token ↔ (cell? token).isSome = true := by
  rw [Option.isSome_iff_exists]
  constructor
  · intro h
    rcases h with ⟨byte, fixed, hspells⟩
    have hread := hspells.exists_cell
    rcases hread with ⟨d, hd, -⟩
    exact ⟨d, hd⟩
  · intro h
    rcases h with ⟨d, hd⟩
    exact ⟨_, _, spells_of_cell? hd⟩

instance : DecidablePred IsToken := fun _ => decidable_of_iff _ isToken_iff.symm

variable {tokens : List (List Char)} {position : Nat} {p : Pattern}

/-- Tokens are read as the cells that they stand for, one for each. -/
theorem ofTokens_eq_ok_iff : ofTokens position tokens = .ok p ↔
    List.Forall₂ (fun token c => Spells token c.byte c.isFixed) tokens p := by
  induction tokens generalizing position p with
  | nil =>
    rw [ofTokens, List.forall₂_nil_left_iff, Except.ok.injEq]
    exact eq_comm
  | cons token rest ih =>
    rw [ofTokens]
    cases hcell : cell? token with
    | none =>
      have hno : ∀ c : Cell, ¬Spells token c.byte c.isFixed := by
        intro c hspells
        rw [cell?_eq_some_iff.mpr hspells] at hcell
        cases hcell
      constructor
      · intro h
        cases h
      · intro h
        cases h with
        | cons hspells _ => exact absurd hspells (hno _)
    | some cell =>
      have hspells := cell?_eq_some_iff.mp hcell
      constructor
      · intro h
        cases hrest : ofTokens (position + 1) rest with
        | error fault =>
          rw [hrest] at h
          cases h
        | ok cells =>
          rw [hrest] at h
          cases h
          exact .cons hspells (ih.mp hrest)
      · intro h
        cases h with
        | cons hfirst hrest =>
          have hsame := cell?_eq_some_iff.mpr hfirst
          rw [hcell] at hsame
          cases hsame
          dsimp only
          rw [ih.mpr hrest]
          rfl

/-- Behind a token, the fault of the words is that of the words that follow. -/
theorem ofTokens_cons_eq_error_iff {rest : List (List Char)} {fault : Malformed}
    (h : IsToken token) : ofTokens position (token :: rest) = .error fault ↔
      ofTokens (position + 1) rest = .error fault := by
  have hread := Option.isSome_iff_exists.mp (isToken_iff.mp h)
  rcases hread with ⟨cell, hcell⟩
  rw [ofTokens, hcell]
  cases ofTokens (position + 1) rest with
  | error other => rfl
  | ok cells =>
    constructor <;> intro hfault <;> cases hfault

/-- A word that is no token is the fault of the words that it begins. -/
theorem ofTokens_cons_of_not_isToken {rest : List (List Char)} (h : ¬IsToken token) :
    ofTokens position (token :: rest) = .error (.badToken (String.ofList token) position) := by
  rw [isToken_iff, Bool.not_eq_true, Option.isSome_eq_false_iff, Option.isNone_iff_eq_none] at h
  rw [ofTokens, h]

/-- The fault is the first word that is no token, with its text and its index. -/
theorem ofTokens_eq_error_iff {fault : Malformed} : ofTokens position tokens = .error fault ↔
    ∃ front token rest, tokens = front ++ token :: rest ∧
      (∀ earlier ∈ front, IsToken earlier) ∧ ¬IsToken token ∧
      fault = .badToken (String.ofList token) (position + front.length) := by
  induction tokens generalizing position with
  | nil => simp [ofTokens]
  | cons first behind ih =>
    by_cases htoken : IsToken first
    · rw [ofTokens_cons_eq_error_iff htoken, ih]
      constructor
      · intro hfault
        rcases hfault with ⟨front, token, rest, hsplit, hfront, hbad, heq⟩
        have hplace : position + 1 + front.length = position + (first :: front).length := by
          rw [List.length_cons]
          omega
        refine ⟨first :: front, token, rest, congrArg (first :: ·) hsplit,
          List.forall_mem_cons.mpr ⟨htoken, hfront⟩, hbad, ?_⟩
        rw [heq, hplace]
      · intro hfault
        rcases hfault with ⟨front, token, rest, hsplit, hfront, hbad, heq⟩
        cases front with
        | nil => exact absurd ((List.cons.inj hsplit).1 ▸ htoken) hbad
        | cons second front =>
          have hplace : position + (second :: front).length = position + 1 + front.length := by
            rw [List.length_cons]
            omega
          refine ⟨front, token, rest, (List.cons.inj hsplit).2,
            (List.forall_mem_cons.mp hfront).2, hbad, ?_⟩
          rw [heq, hplace]
    · rw [ofTokens_cons_of_not_isToken htoken]
      constructor
      · intro hfault
        cases hfault
        exact ⟨[], first, behind, rfl, List.forall_mem_nil _, htoken, rfl⟩
      · intro hfault
        rcases hfault with ⟨front, token, rest, hsplit, hfront, hbad, rfl⟩
        cases front with
        | nil =>
          rw [(List.cons.inj hsplit).1]
          rfl
        | cons second front =>
          have hsecond := (List.forall_mem_cons.mp hfront).1
          exact absurd ((List.cons.inj hsplit).1 ▸ hsecond) htoken

/-- Words are read as some pattern exactly when all of them are tokens. -/
theorem exists_ofTokens_eq_ok_iff :
    (∃ p, ofTokens position tokens = .ok p) ↔ ∀ token ∈ tokens, IsToken token := by
  constructor
  · intro hread
    rcases hread with ⟨p, hp⟩
    have hboth : List.Forall₂ (fun token c => IsToken token ∧ Spells token c.byte c.isFixed)
        tokens p := (ofTokens_eq_ok_iff.mp hp).imp fun _ _ hspells => ⟨⟨_, _, hspells⟩, hspells⟩
    exact ((List.forall₂_and_left tokens p).mp hboth).1
  · intro hall
    cases hread : ofTokens position tokens with
    | ok p => exact ⟨p, rfl⟩
    | error fault =>
      have hfault := ofTokens_eq_error_iff.mp hread
      rcases hfault with ⟨front, token, rest, rfl, -, hbad, -⟩
      exact absurd (hall token (by simp)) hbad

variable {t : String}

/-- A text without a word is empty, and any other one has the fault of its words. -/
theorem parse_eq_error_iff {fault : Malformed} : parse t = .error fault ↔
    Text.words t.toList = [] ∧ fault = .empty ∨
      Text.words t.toList ≠ [] ∧ ofTokens 0 (Text.words t.toList) = .error fault := by
  rw [parse]
  cases Text.words t.toList with
  | nil => simp [eq_comm]
  | cons token rest => simp

/-- Reading accepts exactly the texts of the grammar, which are made of words in one way only, and
makes one position of each word. A text without a word is refused as empty, and any other one for
the first of its words that is no token, with its text and its index. -/
theorem parse_acceptsGrammar (t : String) :
    ∃ words, (∀ others, Text.Separates t.toList others ↔ others = words) ∧
      ((∃ p, parse t = .ok p) ↔ words ≠ [] ∧ ∀ token ∈ words, IsToken token) ∧
      (∀ p, parse t = .ok p ↔ words ≠ [] ∧
        List.Forall₂ (fun token c => Spells token c.byte c.isFixed) words p) ∧
      (parse t = .error .empty ↔ words = []) ∧
      ∀ text position, parse t = .error (.badToken text position) ↔
        ∃ front token rest, words = front ++ token :: rest ∧
          (∀ earlier ∈ front, IsToken earlier) ∧ ¬IsToken token ∧
          text = String.ofList token ∧ position = front.length := by
  refine ⟨Text.words t.toList, fun others => Text.separates_iff, ?_, fun p => ?_, ?_,
    fun text position => ?_⟩
  · simp only [parse_eq_ok_iff]
    rw [exists_and_left, exists_ofTokens_eq_ok_iff]
  · rw [parse_eq_ok_iff, ofTokens_eq_ok_iff]
  · rw [parse_eq_error_iff, ofTokens_eq_error_iff]
    simp
  · rw [parse_eq_error_iff, ofTokens_eq_error_iff]
    constructor
    · intro hfault
      rcases hfault with ⟨-, hempty⟩ | ⟨-, front, token, rest, hsplit, hfront, hbad, heq⟩
      · cases hempty
      · rw [Malformed.badToken.injEq, Nat.zero_add] at heq
        exact ⟨front, token, rest, hsplit, hfront, hbad, heq⟩
    · intro hfault
      rcases hfault with ⟨front, token, rest, hsplit, hfront, hbad, rfl, rfl⟩
      have hsome : Text.words t.toList ≠ [] := by
        rw [hsplit]
        exact List.append_ne_nil_of_right_ne_nil front (List.cons_ne_nil token rest)
      refine .inr ⟨hsome, front, token, rest, hsplit, hfront, hbad, ?_⟩
      rw [Nat.zero_add]

/-- A sign in front of a digit is no digit: the second word is refused, and the words behind it are
not looked at. -/
theorem parse_acceptsGrammar_signed : parse "8b\t+1 ?? zz" = .error (.badToken "+1" 1) := by
  have hgrammar := parse_acceptsGrammar "8b\t+1 ?? zz"
  rcases hgrammar with ⟨words, hwords, -, -, -, hfault⟩
  have hread : Text.words "8b\t+1 ?? zz".toList =
      [['8', 'b'], ['+', '1'], ['?', '?'], ['z', 'z']] := by
    decide +kernel
  have hsplit : words = [['8', 'b'], ['+', '1'], ['?', '?'], ['z', 'z']] :=
    ((hwords _).mp (Text.separates_iff.mpr hread.symm)).symm
  have hearlier : ∀ earlier ∈ [['8', 'b']], IsToken earlier := by decide
  have hsigned : ¬IsToken ['+', '1'] := by decide
  exact (hfault "+1" 1).mpr ⟨[['8', 'b']], ['+', '1'], [['?', '?'], ['z', 'z']], hsplit, hearlier,
    hsigned, rfl, rfl⟩

end LayoutWatch.Pattern
