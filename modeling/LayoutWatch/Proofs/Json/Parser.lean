import LayoutWatch.Json.Parser
import LayoutWatch.Json.Printer
import LayoutWatch.Proofs.Json.Lexeme
import LayoutWatch.Proofs.Json.Numeral

/-!
# Written values are read back

A value that is written, on one line or on indented lines, is read back as it is. First the text is
cut into the tokens of the value, then the tokens are put together to the value. The first step
leaves behind whatever follows the value, and so does the second one, which makes both of them go
through by induction on the value.
-/

namespace LayoutWatch.Json

/-- A value as it is built for writing: texts are escaped, numbers are written as numerals that are
read, and members are named by texts. -/
inductive Written : Value → Prop where
  /-- Nothing. -/
  | null : Written null
  /-- A truth value. -/
  | bool (value : Bool) : Written (ofBool value)
  /-- A number. -/
  | number {text : List Char} (h : IsModerateNumeral text) : Written (.leaf (.number text))
  /-- A text. -/
  | text (s : String) : Written (ofText s)
  /-- A list of such values. -/
  | list {items : List Value} (h : ∀ item ∈ items, Written item) : Written (.list items)
  /-- A record of such values. -/
  | record {members : List Member} (hnames : ∀ m ∈ members, ∃ s, m.1 = .string (escape s))
    (hvalues : ∀ m ∈ members, Written m.2) : Written (.record members)

attribute [simp] Written.null Written.bool Written.text

/-- An integer whose amount is a word is built for writing. -/
theorem Written.int {n : Int} (h : n.natAbs < UInt64.size) : Written (ofInt n) :=
  .number (isModerateNumeral_numeral h)

/-- A natural number that is a word is built for writing. -/
theorem Written.nat {n : Nat} (h : n < UInt64.size) : Written (ofNat n) := .int h

/-- A word of eight bits is built for writing. -/
@[simp] theorem Written.word8 (n : UInt8) : Written (ofNat n.toNat) :=
  .nat (Nat.lt_trans n.toNat_lt (by decide))

/-- A word of thirty-two bits is built for writing. -/
@[simp] theorem Written.word32 (n : UInt32) : Written (ofNat n.toNat) :=
  .nat (Nat.lt_trans n.toNat_lt (by decide))

/-- A word of sixty-four bits is built for writing. -/
@[simp] theorem Written.word64 (n : UInt64) : Written (ofNat n.toNat) := .nat n.toNat_lt

/-- A condition on all scalars of a list is one on its items. -/
theorem allScalarsOfItems_iff {condition : Lexeme → Bool} {items : List Value} :
    Tree.allScalarsOfItems condition items = true ↔
      ∀ item ∈ items, item.allScalars condition = true := by
  induction items with
  | nil => simp [Tree.allScalarsOfItems]
  | cons item items ih => simp [Tree.allScalarsOfItems, ih]

/-- A condition on all scalars of a record is one on its names and its values. -/
theorem allScalarsOfMembers_iff {condition : Lexeme → Bool} {members : List Member} :
    Tree.allScalarsOfMembers condition members = true ↔
      ∀ m ∈ members, condition m.1 = true ∧ m.2.allScalars condition = true := by
  induction members with
  | nil => simp [Tree.allScalarsOfMembers]
  | cons m members ih => simp [Tree.allScalarsOfMembers, ih]

/-- The written form of a text has a meaning. -/
@[simp] theorem isMeaningful_escape (s : List Char) :
    (Lexeme.string (escape s)).isMeaningful = true := by
  simp [Lexeme.isMeaningful]

/-- Every scalar of a value that is built for writing has a meaning. -/
theorem Written.allScalars_isMeaningful {value : Value} (h : Written value) :
    value.allScalars Lexeme.isMeaningful = true := by
  induction h with
  | null => rfl
  | bool _ => rfl
  | number h => exact h.isSome_real?
  | text s => exact isMeaningful_escape s.toList
  | list _ ih => exact allScalarsOfItems_iff.mpr ih
  | record hnames _ ih =>
    refine allScalarsOfMembers_iff.mpr fun m hm => ⟨?_, ih m hm⟩
    obtain ⟨s, hname⟩ := hnames m hm
    rw [hname, isMeaningful_escape]

/-- White space is white space. -/
structure Spacing.Blank (spacing : Spacing) : Prop where
  /-- In front of items, members and closing marks. -/
  gap : ∀ depth, ∀ c ∈ spacing.gap depth, isSpace c = true
  /-- Behind the name of a member. -/
  afterColon : ∀ c ∈ spacing.afterColon, isSpace c = true

/-- Indented lines are set apart by white space. -/
theorem Spacing.blank_indented : Spacing.indented.Blank := by
  refine ⟨fun depth c hc => ?_, fun c hc => ?_⟩
  · rcases List.mem_cons.mp hc with rfl | hc
    · rfl
    · rw [List.eq_of_mem_replicate hc]
      rfl
  · rw [List.mem_singleton.mp hc]
    rfl

mutual

/-- The tokens of a value. -/
def tokens : Value → List Token
  | .leaf scalar => [.scalar scalar]
  | .list items => .listOpen :: itemTokens items ++ [.listClose]
  | .record members => .recordOpen :: memberTokens members ++ [.recordClose]

/-- The tokens of the items of a list. -/
def itemTokens : List Value → List Token
  | [] => []
  | [item] => tokens item
  | item :: next :: rest => tokens item ++ .comma :: itemTokens (next :: rest)

/-- The tokens of the members of a record. -/
def memberTokens : List Member → List Token
  | [] => []
  | [(name, value)] => .scalar name :: .colon :: tokens value
  | (name, value) :: next :: rest =>
    .scalar name :: .colon :: tokens value ++ .comma :: memberTokens (next :: rest)

end

/-! ## Cutting -/

namespace Cut

/-- The tokens of a text are those that its first character completes and those of the rest. -/
theorem tokens?_cons (cut : Cut) (c : Char) (rest : List Char) :
    cut.tokens? (c :: rest) =
      (cut.step c).bind fun step => (step.2.tokens? rest).map (step.1 ++ ·) := by
  simp only [Option.map_eq_bind]
  cases cut <;> rfl

/-- A character that completes no token only changes where the cutting stands. -/
theorem tokens?_of_step {cut next : Cut} {c : Char} (h : cut.step c = some ([], next))
    (rest : List Char) : cut.tokens? (c :: rest) = next.tokens? rest := by
  rw [tokens?_cons, h]
  simp

/-- White space is passed over. -/
theorem tokens?_blanks {blanks : List Char} (h : ∀ c ∈ blanks, isSpace c = true)
    (rest : List Char) : between.tokens? (blanks ++ rest) = between.tokens? rest := by
  induction blanks with
  | nil => rfl
  | cons c blanks ih =>
    obtain ⟨hc, hblanks⟩ := List.forall_mem_cons.mp h
    have hstep : between.step c = some ([], between) := by
      rw [step, begin?, if_pos hc]
    rw [List.cons_append, tokens?_of_step hstep, ih hblanks]

/-- A punctuation mark is a token of its own. -/
theorem tokens?_mark {c : Char} {token : Token} (h : begin? c = some ([token], between))
    (rest : List Char) :
    between.tokens? (c :: rest) = (between.tokens? rest).map (token :: ·) := by
  rw [tokens?_cons, step, h]
  rfl

/-- The digits of a character number are digits. -/
@[simp] theorem isNone_hexValue?_unitDigit (n : Nat) :
    (Text.hexValue? (unitDigit n)).isNone = false := by
  have hdigits : ∀ d < 16, (Text.hexValue? (Nat.digitChar d)).isNone = false := by decide
  exact hdigits (n % 16) (Nat.mod_lt n (by decide))

/-- A digit of a character number is taken into the string that is being read. -/
theorem step_unit {left : Nat} {read : List Char} {c : Char}
    (h : (Text.hexValue? c).isNone = false) :
    (unit left read).step c =
      some ([], if left ≤ 1 then string (c :: read) else unit (left - 1) (c :: read)) := by
  rw [step, h, if_neg Bool.false_ne_true]
  split <;> rfl

/-- The written form of a character is taken into the string that is being read. -/
theorem tokens?_escapeChar (c : Char) (read rest : List Char) :
    (string read).tokens? (escapeChar c ++ rest) =
      (string ((escapeChar c).reverse ++ read)).tokens? rest := by
  rcases escapeChar_cases c with ⟨short, hshort, hne, htext⟩ | ⟨hcontrol, htext⟩ |
    ⟨hquote, hbackslash, hplain, htext⟩ <;> rw [htext]
  · have hstep : (escape ('\\' :: read)).step short =
        some ([], string (short :: '\\' :: read)) := by
      rw [step, if_neg hne, hshort, Option.isSome_some, if_pos rfl]
    exact (tokens?_of_step rfl _).trans (tokens?_of_step hstep _)
  · have hzero : (Text.hexValue? '0').isNone = false := by decide
    calc (string read).tokens? ('\\' :: 'u' :: '0' :: '0' :: _ :: _ :: rest)
      _ = (unit 4 ('u' :: '\\' :: read)).tokens? ('0' :: '0' :: _ :: _ :: rest) :=
        (tokens?_of_step rfl _).trans (tokens?_of_step rfl _)
      _ = (unit 2 ('0' :: '0' :: 'u' :: '\\' :: read)).tokens? (_ :: _ :: rest) :=
        (tokens?_of_step (step_unit hzero) _).trans (tokens?_of_step (step_unit hzero) _)
      _ = (string (unitDigit c.toNat :: unitDigit (c.toNat / 16) :: '0' :: '0' :: 'u' :: '\\' ::
            read)).tokens? rest :=
        (tokens?_of_step (step_unit (isNone_hexValue?_unitDigit _)) _).trans
          (tokens?_of_step (step_unit (isNone_hexValue?_unitDigit _)) _)
  · have hstep : (string read).step c = some ([], string (c :: read)) := by
      rw [step, if_neg hquote, if_neg hbackslash, if_neg hplain]
    exact tokens?_of_step hstep _

/-- The written form of a text is taken into the string that is being read. -/
theorem tokens?_escape (text read rest : List Char) :
    (string read).tokens? (Json.escape text ++ rest) =
      (string ((Json.escape text).reverse ++ read)).tokens? rest := by
  induction text generalizing read with
  | nil => rfl
  | cons c text ih =>
    rw [Json.escape, List.flatMap_cons, List.append_assoc, tokens?_escapeChar, ← Json.escape, ih,
      List.reverse_append, List.append_assoc]

/-- A written string is one token. -/
theorem tokens?_string (text rest : List Char) :
    between.tokens? ('"' :: Json.escape text ++ '"' :: rest) =
      (between.tokens? rest).map (.scalar (.string (Json.escape text)) :: ·) := by
  have hclose : ∀ read, (string read).tokens? ('"' :: rest) =
      (between.tokens? rest).map (.scalar (.string read.reverse) :: ·) :=
    fun read => tokens?_cons (string read) '"' rest
  have hopen : between.step '"' = some ([], string []) := rfl
  rw [List.cons_append, tokens?_of_step hopen, tokens?_escape, hclose,
    List.append_nil, List.reverse_reverse]

/-- Nothing that belongs to a word stands in front. -/
def EndsWord (rest : List Char) : Prop := ∀ c ∈ rest.head?, isWordChar c = false

/-- The rest of a word is read up to its end. -/
theorem tokens?_wordRest {read word rest : List Char} (hword : ∀ c ∈ word, isWordChar c = true)
    (hrest : EndsWord rest) {token : Token}
    (htoken : wordToken? (read.reverse ++ word) = some token) :
    (Cut.word read).tokens? (word ++ rest) = (between.tokens? rest).map (token :: ·) := by
  induction word generalizing read with
  | nil =>
    rw [List.append_nil] at htoken
    rw [List.nil_append]
    cases rest with
    | nil => rw [tokens?, tokens?, htoken]; rfl
    | cons c rest =>
      have hc : ¬isWordChar c = true := by
        rw [hrest c rfl]
        exact Bool.false_ne_true
      have hstep : (Cut.word read).step c =
          (begin? c).map fun next => (token :: next.1, next.2) := by
        rw [step, if_neg hc, htoken, Option.map_eq_bind]
        rfl
      rw [tokens?_cons, tokens?_cons, hstep, step]
      cases begin? c with
      | none => rfl
      | some next => simp [Function.comp_def]
  | cons c word ih =>
    obtain ⟨hc, hword⟩ := List.forall_mem_cons.mp hword
    have hstep : (Cut.word read).step c = some ([], .word (c :: read)) := by
      rw [step, if_pos hc]
    rw [List.cons_append, tokens?_of_step hstep, ih hword]
    rw [List.reverse_cons, List.append_assoc]
    exact htoken

/-- White space belongs to no word. -/
theorem isWordChar_of_isSpace {c : Char} (h : isSpace c = true) : isWordChar c = false := by
  simp only [isSpace, Bool.or_eq_true, beq_iff_eq] at h
  rcases h with ((rfl | rfl) | rfl) | rfl <;> decide

/-- White space ends a word. -/
theorem EndsWord.blanks {blanks rest : List Char} (h : ∀ c ∈ blanks, isSpace c = true)
    (hrest : EndsWord rest) : EndsWord (blanks ++ rest) := by
  cases blanks with
  | nil => exact hrest
  | cons c blanks =>
    intro first hfirst
    obtain rfl : c = first := Option.some.inj hfirst
    exact isWordChar_of_isSpace (h c List.mem_cons_self)

/-- A character of a word begins one. -/
theorem begin?_of_isWordChar {c : Char} (h : isWordChar c = true) :
    begin? c = some ([], .word [c]) := by
  have hspace : isSpace c = false := by
    rw [← Bool.not_eq_true]
    intro hblank
    rw [isWordChar_of_isSpace hblank] at h
    exact Bool.false_ne_true h
  have hquote : c ≠ '"' := by
    rintro rfl
    exact absurd h (by decide)
  rw [begin?, hspace, if_neg Bool.false_ne_true, if_neg hquote, if_pos h]

/-- A word is one token. -/
theorem tokens?_word {word rest : List Char} (hne : word ≠ [])
    (hword : ∀ c ∈ word, isWordChar c = true) (hrest : EndsWord rest) {token : Token}
    (htoken : wordToken? word = some token) :
    between.tokens? (word ++ rest) = (between.tokens? rest).map (token :: ·) := by
  cases word with
  | nil => exact absurd rfl hne
  | cons c word =>
    obtain ⟨hc, hword⟩ := List.forall_mem_cons.mp hword
    have hstep : between.step c = some ([], .word [c]) := begin?_of_isWordChar hc
    have hmore : wordToken? ([c].reverse ++ word) = some token := htoken
    rw [List.cons_append, tokens?_of_step hstep, tokens?_wordRest hword hrest hmore]

/-- The characters of a numeral are those of a word. -/
theorem isWordChar_of_mem_text {w : Binary64.Written} (h : w.WellFormed) :
    ∀ c ∈ w.text, isWordChar c = true := by
  have hdigits : ∀ digits : List Char, (∀ c ∈ digits, c.isDigit = true) →
      ∀ c ∈ digits, isWordChar c = true := by
    intro digits hdigits c hc
    simp [isWordChar, Char.isAlphanum, hdigits c hc]
  have hwhole := hdigits _ h.isDigit_whole
  have hfraction : ∀ c ∈ w.fractionText, isWordChar c = true := by
    rw [Binary64.Written.fractionText]
    split
    · exact List.forall_mem_nil _
    · exact List.forall_mem_cons.mpr ⟨rfl, hdigits _ h.isDigit_fraction⟩
  have hexponent : ∀ c ∈ w.exponentText, isWordChar c = true := by
    have hlast := hdigits _ h.isDigit_exponent
    rw [Binary64.Written.exponentText]
    split
    · exact List.forall_mem_nil _
    · split
      · exact List.forall_mem_cons.mpr ⟨rfl, List.forall_mem_cons.mpr ⟨rfl, hlast⟩⟩
      · exact List.forall_mem_cons.mpr ⟨rfl, hlast⟩
  have hbody : ∀ c ∈ w.body, isWordChar c = true :=
    List.forall_mem_append.mpr ⟨hwhole, List.forall_mem_append.mpr ⟨hfraction, hexponent⟩⟩
  rw [Binary64.Written.text]
  split
  · exact List.forall_mem_cons.mpr ⟨rfl, hbody⟩
  · exact hbody

/-- A numeral stands for itself. -/
theorem wordToken?_of_isNumeral {text : List Char} (h : isNumeral text = true) :
    wordToken? text = some (.scalar (.number text)) := by
  have hne : ∀ word : List Char, isNumeral word = false → text ≠ word := by
    rintro _ hword rfl
    rw [hword] at h
    cases h
  rw [wordToken?, if_neg (hne _ (by decide)), if_neg (hne _ (by decide)),
    if_neg (hne _ (by decide)), if_pos h]

/-- A numeral is one token. -/
theorem tokens?_numeral {w : Binary64.Written} (h : w.WellFormed) {rest : List Char}
    (hrest : EndsWord rest) :
    between.tokens? (w.text ++ rest) =
      (between.tokens? rest).map (.scalar (.number w.text) :: ·) :=
  tokens?_word (text_ne_nil h) (isWordChar_of_mem_text h) hrest
    (wordToken?_of_isNumeral (isNumeral_text h))

section Printing

variable {spacing : Spacing}

/-- The text of a value is cut into the tokens of the value. -/
def Cuts (spacing : Spacing) (value : Value) : Prop :=
  ∀ depth rest, EndsWord rest → between.tokens? (print spacing depth value ++ rest) =
    (between.tokens? rest).map (tokens value ++ ·)

/-- A word is cut into its token. -/
theorem cuts_of_word {scalar : Lexeme} (hne : scalar.text ≠ [])
    (hword : scalar.text.all isWordChar = true)
    (htoken : wordToken? scalar.text = some (.scalar scalar)) : Cuts spacing (.leaf scalar) :=
  fun _ _ hrest => tokens?_word hne (List.all_eq_true.mp hword) hrest htoken

/-- A text behind that of a value is cut by itself. -/
theorem Cuts.append {value : Value} (h : Cuts spacing value) {depth : Nat}
    {rest : List Char} (hrest : EndsWord rest) {more : List Token → List Token}
    {last : List Char} (hmore : between.tokens? rest = (between.tokens? last).map more) :
    between.tokens? (print spacing depth value ++ rest) =
      (between.tokens? last).map fun behind => tokens value ++ more behind := by
  rw [h depth rest hrest, hmore, Option.map_map]
  rfl

/-- A punctuation mark ends a word. -/
theorem endsWord_comma (rest : List Char) : EndsWord (',' :: rest) := by
  intro c hc
  cases hc
  rfl

variable (hspacing : spacing.Blank)

include hspacing

/-- The text of items is cut into the tokens of the items. -/
theorem tokens?_printItems {items : List Value} (h : ∀ item ∈ items, Cuts spacing item)
    (depth : Nat) {rest : List Char} (hrest : EndsWord rest) :
    between.tokens? (printItems spacing depth items ++ rest) =
      (between.tokens? rest).map (itemTokens items ++ ·) := by
  induction items with
  | nil => simp [printItems, itemTokens]
  | cons item items ih =>
    obtain ⟨hitem, hitems⟩ := List.forall_mem_cons.mp h
    cases items with
    | nil =>
      rw [printItems, List.append_assoc, tokens?_blanks (hspacing.gap depth), itemTokens,
        hitem depth rest hrest]
    | cons next items =>
      have hcomma : between.tokens? (',' :: (printItems spacing depth (next :: items) ++ rest)) =
          (between.tokens? rest).map (.comma :: itemTokens (next :: items) ++ ·) := by
        rw [tokens?_mark rfl, ih hitems, Option.map_map]
        rfl
      rw [printItems, List.append_assoc, List.append_assoc, List.cons_append,
        tokens?_blanks (hspacing.gap depth), hitem.append (endsWord_comma _) hcomma, itemTokens]
      simp only [List.append_assoc]

/-- The name of a member and the colon behind it are two tokens. -/
theorem tokens?_name (text : List Char) (depth : Nat) (rest : List Char) :
    between.tokens? (spacing.gap depth ++ ((Lexeme.string (Json.escape text)).text ++
      ':' :: (spacing.afterColon ++ rest))) = (between.tokens? rest).map
        ([.scalar (.string (Json.escape text)), .colon] ++ ·) := by
  have hcolon : between.tokens? (':' :: (spacing.afterColon ++ rest)) =
      (between.tokens? rest).map (.colon :: ·) := by
    rw [tokens?_mark rfl, tokens?_blanks hspacing.afterColon]
  rw [tokens?_blanks (hspacing.gap depth), Lexeme.text, List.append_assoc, List.singleton_append,
    tokens?_string, hcolon, Option.map_map]
  rfl

/-- The text of members is cut into the tokens of the members. -/
theorem tokens?_printMembers {members : List Member}
    (hnames : ∀ m ∈ members, ∃ s, m.1 = .string (Json.escape s))
    (h : ∀ m ∈ members, Cuts spacing m.2) (depth : Nat) {rest : List Char}
    (hrest : EndsWord rest) :
    between.tokens? (printMembers spacing depth members ++ rest) =
      (between.tokens? rest).map (memberTokens members ++ ·) := by
  induction members with
  | nil => simp [printMembers, memberTokens]
  | cons m members ih =>
    obtain ⟨⟨text, hname⟩, hothers⟩ := List.forall_mem_cons.mp hnames
    obtain ⟨hvalue, hvalues⟩ := List.forall_mem_cons.mp h
    obtain ⟨name, value⟩ := m
    obtain rfl : name = .string (Json.escape text) := hname
    cases members with
    | nil =>
      rw [printMembers, List.append_assoc, List.append_assoc, List.append_assoc, List.cons_append,
        tokens?_name hspacing, hvalue depth rest hrest, Option.map_map, memberTokens]
      rfl
    | cons next members =>
      have hcomma : between.tokens?
          (',' :: (printMembers spacing depth (next :: members) ++ rest)) =
            (between.tokens? rest).map (.comma :: memberTokens (next :: members) ++ ·) := by
        rw [tokens?_mark rfl, ih hothers hvalues, Option.map_map]
        rfl
      rw [printMembers, List.append_assoc, List.append_assoc, List.append_assoc, List.append_assoc,
        List.cons_append, List.cons_append, tokens?_name hspacing,
        hvalue.append (endsWord_comma _) hcomma, Option.map_map, memberTokens]
      simp only [List.append_assoc, Function.comp_def, List.cons_append, List.nil_append]

/-- The closing mark of a list or record ends its last value. -/
theorem tokens?_close {c : Char} {token : Token} (hmark : begin? c = some ([token], between))
    (hword : isWordChar c = false) (depth : Nat) (rest : List Char) :
    EndsWord (spacing.gap depth ++ c :: rest) ∧
      between.tokens? (spacing.gap depth ++ c :: rest) =
        (between.tokens? rest).map (token :: ·) := by
  refine ⟨.blanks (hspacing.gap depth) fun first hfirst => ?_, ?_⟩
  · obtain rfl : c = first := Option.some.inj hfirst
    exact hword
  · rw [tokens?_blanks (hspacing.gap depth), tokens?_mark hmark]

/-- The text of a value is cut into the tokens of the value. -/
theorem cuts_of_written {value : Value} (h : Written value) : Cuts spacing value := by
  induction h with
  | null => exact cuts_of_word (by decide) (by decide) rfl
  | bool value => cases value <;> exact cuts_of_word (by decide) (by decide) rfl
  | number h =>
    obtain ⟨w, hformed, -, rfl⟩ := h
    exact fun _ _ hrest => tokens?_numeral hformed hrest
  | text s =>
    intro _ rest _
    rw [ofText, print, Lexeme.text, List.append_assoc]
    exact tokens?_string s.toList rest
  | @list items _ ih =>
    intro depth rest hrest
    cases items with
    | nil =>
      rw [print, List.cons_append, List.singleton_append, tokens?_mark rfl, tokens?_mark rfl,
        Option.map_map]
      rfl
    | cons item items =>
      obtain ⟨hends, hclose⟩ := tokens?_close (c := ']') hspacing rfl rfl depth rest
      rw [print, List.append_assoc, List.append_assoc, List.cons_append, List.singleton_append,
        tokens?_mark rfl, tokens?_printItems hspacing ih _ hends, hclose, tokens]
      simp [Function.comp_def]
  | @record members hnames _ ih =>
    intro depth rest hrest
    cases members with
    | nil =>
      rw [print, List.cons_append, List.singleton_append, tokens?_mark rfl, tokens?_mark rfl,
        Option.map_map]
      rfl
    | cons m members =>
      obtain ⟨hends, hclose⟩ := tokens?_close (c := '}') hspacing rfl rfl depth rest
      rw [print, List.append_assoc, List.append_assoc, List.cons_append, List.singleton_append,
        tokens?_mark rfl, tokens?_printMembers hspacing hnames ih _ hends, hclose, tokens]
      simp [Function.comp_def]

end Printing

end Cut

/-! ## Putting together -/

namespace Expect

/-- A token is taken, and then the rest. -/
theorem value?_cons (expect : Expect) (token : Token) (rest : List Token) :
    expect.value? (token :: rest) = (expect.step token).bind (·.value? rest) := by
  cases expect <;> rfl

/-- The tokens of a value put it into the innermost frame. -/
def Reads (v : Value) : Prop :=
  ∀ frames rest, (Expect.value frames).value? (tokens v ++ rest) = (deliver v frames).value? rest

/-- The tokens of a value do not begin with the end of a list. -/
theorem firstItem_tokens (v : Value) (frames : List Frame) (rest : List Token) :
    (Expect.firstItem frames).value? (tokens v ++ rest) =
      (Expect.value (.list [] :: frames)).value? (tokens v ++ rest) := by
  cases v <;> rfl

/-- The tokens of items, with the end of the list behind them, complete a list. -/
theorem value?_itemTokens {item : Value} {items : List Value} (h : ∀ v ∈ item :: items, Reads v)
    (done : List Value) (frames : List Frame) (rest : List Token) :
    (Expect.value (.list done :: frames)).value?
      (itemTokens (item :: items) ++ .listClose :: rest) =
        (deliver (.list (done.reverse ++ item :: items)) frames).value? rest := by
  induction items generalizing item done with
  | nil =>
    rw [itemTokens, h item List.mem_cons_self, deliver, value?_cons, step, List.reverse_cons]
    rfl
  | cons next items ih =>
    obtain ⟨hitem, hitems⟩ := List.forall_mem_cons.mp h
    rw [itemTokens, List.append_assoc, hitem, deliver, List.cons_append, value?_cons, step,
      Option.bind_some, ih hitems, List.reverse_cons, List.append_assoc]
    rfl

/-- The tokens of a member add it to those in front, where a name may stand. -/
theorem value?_member {value : Value} (hvalue : Reads value) {expect : Expect}
    {done : List Member} {raw : List Char} {frames : List Frame}
    (hexpect : expect.step (.scalar (.string raw)) = some (.colon done (.string raw) frames))
    (rest : List Token) :
    expect.value? (.scalar (.string raw) :: .colon :: (tokens value ++ rest)) =
      (Expect.afterMember ((.string raw, value) :: done) frames).value? rest := by
  rw [value?_cons, hexpect, Option.bind_some, value?_cons, step, Option.bind_some, hvalue, deliver]

/-- The tokens of members, with the end of the record behind them, complete a record. -/
theorem value?_memberTokens {m : Member} {members : List Member}
    (hnames : ∀ m' ∈ m :: members, ∃ s, m'.1 = .string (escape s))
    (h : ∀ m' ∈ m :: members, Reads m'.2) (expect : Expect) {done : List Member}
    {frames : List Frame}
    (hexpect : ∀ raw, expect.step (.scalar (.string raw)) = some (.colon done (.string raw) frames))
    (rest : List Token) :
    expect.value? (memberTokens (m :: members) ++ .recordClose :: rest) =
      (deliver (.record (done.reverse ++ m :: members)) frames).value? rest := by
  induction members generalizing m expect done with
  | nil =>
    obtain ⟨⟨s, hname⟩, -⟩ := List.forall_mem_cons.mp hnames
    obtain ⟨name, value⟩ := m
    obtain rfl : name = .string (escape s) := hname
    rw [memberTokens, List.cons_append, List.cons_append,
      value?_member (h _ List.mem_cons_self) (hexpect _), value?_cons, step, List.reverse_cons]
    rfl
  | cons next members ih =>
    obtain ⟨⟨s, hname⟩, hothers⟩ := List.forall_mem_cons.mp hnames
    obtain ⟨hvalue, hvalues⟩ := List.forall_mem_cons.mp h
    obtain ⟨name, value⟩ := m
    obtain rfl : name = .string (escape s) := hname
    have hmore := ih hothers hvalues (.name ((.string (escape s), value) :: done) frames)
      fun _ => rfl
    simp only [memberTokens, List.cons_append, List.append_assoc]
    rw [value?_member hvalue (hexpect _), value?_cons, step, Option.bind_some, hmore,
      List.reverse_cons, List.append_assoc]
    rfl

/-- The tokens of a value are put together to the value. -/
theorem reads_of_written {v : Value} (h : Written v) : Reads v := by
  induction h with
  | null => exact fun _ _ => rfl
  | bool _ => exact fun _ _ => rfl
  | number _ => exact fun _ _ => rfl
  | text _ => exact fun _ _ => rfl
  | @list items _ ih =>
    intro frames rest
    cases items with
    | nil => rfl
    | cons item items =>
      have hfirst : ∃ more, itemTokens (item :: items) = tokens item ++ more := by
        cases items with
        | nil => exact ⟨[], (List.append_nil _).symm⟩
        | cons next items => exact ⟨_, rfl⟩
      obtain ⟨more, hmore⟩ := hfirst
      rw [tokens, List.append_assoc, List.cons_append, value?_cons, List.singleton_append, step,
        beginValue?, Option.bind_some, hmore, List.append_assoc, firstItem_tokens,
        ← List.append_assoc, ← hmore, value?_itemTokens ih]
      rfl
  | @record members hnames _ ih =>
    intro frames rest
    cases members with
    | nil => rfl
    | cons m members =>
      have hmembers := value?_memberTokens hnames ih (.firstName frames) (fun _ => rfl) rest
      rw [tokens, List.append_assoc, List.cons_append, value?_cons, List.singleton_append, step,
        beginValue?, Option.bind_some, hmembers]
      rfl

end Expect

/-- What is written is read back. -/
theorem parse?_print {spacing : Spacing} (hspacing : spacing.Blank) {value : Value}
    (h : Written value) : parse? (print spacing 0 value) = some value := by
  have htokens := Cut.cuts_of_written hspacing h 0 [] (fun c hc => by cases hc)
  rw [List.append_nil, Cut.tokens?, Option.map_some, List.append_nil] at htokens
  have hvalue := Expect.reads_of_written h [] []
  rw [List.append_nil] at hvalue
  rw [parse?, htokens, Option.bind_some, hvalue]
  rfl

/-- What is written on indented lines is read back. -/
theorem parse?_pretty {value : Value} (h : Written value) :
    parse? (pretty value).toList = some value := by
  rw [pretty, String.toList_ofList, parse?_print Spacing.blank_indented h]

end LayoutWatch.Json
