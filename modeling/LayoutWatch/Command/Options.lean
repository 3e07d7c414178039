import LayoutWatch.Binary64.Reading

/-!
# Options of commands

Arguments are taken from left to right. The value of an option stands behind an equality sign or is
the next argument. A value behind the sign is checked at once, and one of its own when the next
known option or the end of the arguments comes. What is not known at all is refused before anything
that is still to be checked.
-/

namespace LayoutWatch.Command

/-- Why arguments are no command, or what else they ask for. -/
inductive UsageFault where
  /-- Nothing is asked for at all. -/
  | nothing
  /-- Flags are given, but no command. -/
  | noCommand
  /-- Help is asked for. -/
  | help
  /-- The version is asked for. -/
  | version
  /-- The command is not known. -/
  | unknownCommand
  /-- An option is not known, or an argument belongs to none. -/
  | unknownArgument
  /-- An option has no value. -/
  | missingValue
  /-- An option is given twice. -/
  | repeated
  /-- A flag has a value. -/
  | excessValue
  /-- A value is not of the form that the option has. -/
  | malformedValue
  /-- An option that has to be given is missing. -/
  | missingOption
  deriving DecidableEq, Repr

/-- The arguments only ask for help or the version. -/
def UsageFault.isRequest : UsageFault → Bool
  | .help | .version => true
  | _ => false

/-- The status with which a program ends. -/
def UsageFault.exitCode (fault : UsageFault) : UInt32 := if fault.isRequest then 0 else 2

/-! ## Values -/

/-- Read a whole number without a sign, or with a plus sign. -/
def natural? (text : String) : Option Nat :=
  match text.toList with
  | '+' :: digits => Text.decimal? digits
  | digits => Text.decimal? digits

/-- Read a word of sixty-four bits. -/
def word64? (text : String) : Option UInt64 :=
  ((natural? text).filter (· < UInt64.size)).map UInt64.ofNat

/-- Read a word of eight bits. Zero may also have a minus sign. -/
def word8? (text : String) : Option UInt8 :=
  match text.toList with
  | '-' :: digits => ((Text.decimal? digits).filter (· = 0)).map UInt8.ofNat
  | _ => ((natural? text).filter (· < UInt8.size)).map UInt8.ofNat

/-- What the value of an option has to be. -/
inductive Content where
  /-- Any text. -/
  | text
  /-- A word of eight bits. -/
  | word8
  /-- A word of sixty-four bits. -/
  | word64
  /-- A bound. -/
  | bound
  deriving DecidableEq, Repr

/-- A text is of the form of a value. -/
def Content.accepts : Content → String → Bool
  | .text, _ => true
  | .word8, s => (word8? s).isSome
  | .word64, s => (word64? s).isSome
  | .bound, s => (Binary64.Bound.parse? s).isSome

/-! ## Forms -/

/-- What an option is for. -/
inductive OptionKind where
  /-- It is there or it is not. -/
  | flag
  /-- It has a value. -/
  | value (content : Content)
  /-- It has a value and may be given several times. -/
  | values (content : Content)
  /-- It asks for help. -/
  | help
  /-- It asks for the version. -/
  | version
  deriving DecidableEq, Repr

/-- The form of an option. -/
structure OptionForm where
  /-- Name, which stands behind two dashes. -/
  name : String
  /-- Letter, which stands behind one dash. -/
  letter : Option Char
  /-- What it is for. -/
  kind : OptionKind
  deriving DecidableEq, Repr

namespace OptionForm

/-- An option with a value. -/
def value (name : String) (content : Content) : OptionForm := ⟨name, none, .value content⟩

/-- An option with a text as its value. -/
def text (name : String) : OptionForm := .value name .text

/-- An option with texts as its values. -/
def texts (name : String) : OptionForm := ⟨name, none, .values .text⟩

/-- A flag. -/
def flag (name : String) : OptionForm := ⟨name, none, .flag⟩

/-- The flag for more talk, which changes nothing that is reported. -/
def verbose : OptionForm := ⟨"verbose", some 'v', .flag⟩

/-- The option that asks for help. -/
def help : OptionForm := ⟨"help", some 'h', .help⟩

/-- The option that asks for the version. -/
def version : OptionForm := ⟨"version", some 'V', .version⟩

end OptionForm

/-- What an option is, as far as its value matters. -/
def OptionKind.content? : OptionKind → Option Content
  | .value content | .values content => some content
  | .flag | .help | .version => none

/-- The option may be given several times. -/
def OptionKind.mayRepeat : OptionKind → Bool
  | .values _ => true
  | .flag | .value _ | .help | .version => false

/-! ## Taking arguments -/

/-- Options that are given, with their values in order. -/
abbrev Given := List (String × String)

namespace Given

/-- The option is given. -/
def has (g : Given) (name : String) : Bool := g.any (·.1 == name)

/-- The value of an option. -/
def text? (g : Given) (name : String) : Option String := g.lookup name

/-- The values of an option. -/
def texts (g : Given) (name : String) : List String :=
  (g.filter (·.1 == name)).map (·.2)

/-- The value of an option, if that is a word of eight bits. -/
def word8? (g : Given) (name : String) : Option UInt8 := (g.text? name).bind Command.word8?

/-- The value of an option, if that is a word of sixty-four bits. -/
def word64? (g : Given) (name : String) : Option UInt64 := (g.text? name).bind Command.word64?

/-- The value of an option, if that is a bound. -/
def bound? (g : Given) (name : String) : Option Binary64.Bound :=
  (g.text? name).bind Binary64.Bound.parse?

end Given

/-- How far the taking of arguments has come. -/
structure Taking where
  /-- Options that are given and checked. -/
  given : Given
  /-- An option that is still to be checked, with its value if that has come. -/
  pending : Option (OptionForm × Option String)
  deriving DecidableEq, Repr

namespace Taking

/-- No argument has been taken. -/
def start : Taking := ⟨[], none⟩

/-- Note that an option is given. -/
def note (t : Taking) (o : OptionForm) (value : String) : Except UsageFault Taking :=
  if !o.kind.mayRepeat && t.given.has o.name then .error .repeated
  else if o.kind.content?.all (·.accepts value) then .ok ⟨t.given ++ [(o.name, value)], none⟩
  else .error .malformedValue

/-- Check what is still to be checked. -/
def settle (t : Taking) : Except UsageFault Taking :=
  match t.pending with
  | none => .ok t
  | some (_, none) => .error .missingValue
  | some (o, some value) => t.note o value

/-- Take a flag. -/
def takeFlag (t : Taking) (o : OptionForm) : Except UsageFault Taking := do
  let t ← t.settle
  match o.kind with
  | .help => throw .help
  | .version => throw .version
  | .flag | .value _ | .values _ => t.note o ""

/-- Take an option by its name. -/
def takeLong (forms : List OptionForm) (t : Taking) (name : String) (value : Option String) :
    Except UsageFault Taking :=
  match forms.find? (·.name == name) with
  | none => .error .unknownArgument
  | some o =>
    match o.kind.content?, value with
    | some _, some v => do (← t.settle).note o v
    | some _, none => do return { ← t.settle with pending := some (o, none) }
    | none, some _ => .error .excessValue
    | none, none => t.takeFlag o

/-- Take flags by their letters. -/
def takeLetters (forms : List OptionForm) (t : Taking) : List Char → Except UsageFault Taking
  | [] => .ok t
  | letter :: rest =>
    match forms.find? (·.letter == some letter) with
    | none => .error .unknownArgument
    | some o => do (← t.takeFlag o).takeLetters forms rest

end Taking

/-- An argument, by how it begins. -/
inductive Argument where
  /-- Two dashes, behind which there are no more options. -/
  | separator
  /-- An option by its name, with a value behind an equality sign. -/
  | long (name : String) (value : Option String)
  /-- Flags by their letters. -/
  | letters (letters : List Char)
  /-- Anything else. -/
  | word (text : String)
  deriving DecidableEq, Repr

/-- The argument that a text is. -/
def Argument.ofText (text : String) : Argument :=
  match text.toList with
  | ['-', '-'] => .separator
  | '-' :: '-' :: rest =>
    let name := String.ofList (rest.takeWhile (· != '='))
    match rest.dropWhile (· != '=') with
    | _ :: value => .long name (some (String.ofList value))
    | [] => .long name none
  | '-' :: letter :: rest => .letters (letter :: rest)
  | _ => .word text

/-- Take the arguments of a command. -/
def takeArguments (forms : List OptionForm) (t : Taking) : List String → Except UsageFault Given
  | [] => do return (← t.settle).given
  | argument :: rest =>
    match Argument.ofText argument with
    | .separator => if rest.isEmpty then do return (← t.settle).given else .error .unknownArgument
    | .long name value => do takeArguments forms (← t.takeLong forms name value) rest
    | .letters letters => do takeArguments forms (← t.takeLetters forms letters) rest
    | .word text =>
      match t.pending with
      | some (o, none) => takeArguments forms { t with pending := some (o, some text) } rest
      | some (_, some _) | none => .error .unknownArgument

end LayoutWatch.Command
