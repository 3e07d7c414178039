import LayoutWatch.Yaml.Token

/-!
# Values of indented text

The tokens of a text are put together to a value. A text holds exactly one value. Where a value is
missing, a scalar stands for it that nothing is written for.
-/

namespace LayoutWatch.Yaml

/-- What may stand at a place, and what shows that nothing does. -/
structure Position where
  /-- A sequence or mapping may begin by indentation. -/
  block : Bool
  /-- Entries of a sequence may begin without an indentation of their own. -/
  entries : Bool
  /-- Tokens in front of which nothing is written. -/
  ends : List Token

namespace Position

/-- The value of a text. -/
def document : Position := ⟨true, false, []⟩

/-- An entry of a sequence. -/
def sequenceEntry : Position := ⟨true, false, [.entry, .blockEnd]⟩

/-- An entry of a sequence without an indentation of its own. -/
def mappingEntry : Position := ⟨true, false, [.entry, .key, .value, .blockEnd]⟩

/-- A key or value of a mapping. -/
def mappingPart : Position := ⟨true, true, [.key, .value, .blockEnd]⟩

/-- An item between brackets, or a key without a mark. -/
def item : Position := ⟨false, false, []⟩

/-- The value of a pair that is an item of a list. -/
def pairValue : Position := ⟨false, false, [.comma, .listClose]⟩

/-- A marked key between braces. -/
def recordKey : Position := ⟨false, false, [.value, .comma, .recordClose]⟩

/-- A value between braces. -/
def recordValue : Position := ⟨false, false, [.comma, .recordClose]⟩

end Position

/-- Values with the tokens behind them. -/
abbrev Items := List Value × List Token

/-- Members with the tokens behind them. -/
abbrev Members := List (Scalar × Value) × List Token

/-- Pass the comma in front of an item, which only the first one goes without. -/
def passComma (first : Bool) (ts : List Token) : Option (List Token) :=
  if first then some ts
  else
    match ts with
    | .comma :: rest => some rest
    | _ => none

mutual

/-- Read a value. -/
def readValue (p : Position) : Nat → List Token → Option (Value × List Token)
  | 0, _ | _, [] => none
  | steps + 1, t :: rest =>
    if p.ends.contains t then some (.leaf .nothing, t :: rest)
    else
      match t with
      | .scalar s => some (.leaf s, rest)
      | .listOpen => (readItems true steps rest).map fun (items, ts) => (.list items, ts)
      | .recordOpen => (readMembers true steps rest).map fun (ms, ts) => (.record ms, ts)
      | .sequenceStart =>
        if p.block then (readSequence steps rest).map fun (items, ts) => (.list items, ts)
        else none
      | .mappingStart =>
        if p.block then (readMapping steps rest).map fun (ms, ts) => (.record ms, ts) else none
      | .entry =>
        if p.entries then (readEntries steps (t :: rest)).map fun (items, ts) => (.list items, ts)
        else none
      | _ => none

/-- Read the entries of a sequence and its end. -/
def readSequence : Nat → List Token → Option Items
  | 0, _ => none
  | steps + 1, .entry :: rest => do
    let (item, ts) ← readValue .sequenceEntry steps rest
    let (more, ts) ← readSequence steps ts
    return (item :: more, ts)
  | _, .blockEnd :: rest => some ([], rest)
  | _, _ => none

/-- Read the entries of a sequence without an indentation of its own. -/
def readEntries : Nat → List Token → Option Items
  | 0, _ => none
  | steps + 1, .entry :: rest => do
    let (item, ts) ← readValue .mappingEntry steps rest
    let (more, ts) ← readEntries steps ts
    return (item :: more, ts)
  | _, ts => some ([], ts)

/-- Read a value behind its mark. Without the mark nothing is written. -/
def readMarked (p : Position) : Nat → List Token → Option (Value × List Token)
  | 0, _ => none
  | steps + 1, .value :: rest => readValue p steps rest
  | _, ts => some (.leaf .nothing, ts)

/-- Read the members of a mapping and its end. -/
def readMapping : Nat → List Token → Option Members
  | 0, _ => none
  | steps + 1, .key :: rest => do
    let (key, ts) ← readValue .mappingPart steps rest
    let name ← key.scalar?
    let (value, ts) ← readMarked .mappingPart steps ts
    let (more, ts) ← readMapping steps ts
    return ((name, value) :: more, ts)
  | _, .blockEnd :: rest => some ([], rest)
  | _, _ => none

/-- Read the key of a pair that is an item of a list. A missing key takes the place of a token. -/
def readPairKey : Nat → List Token → Option (Value × List Token)
  | 0, _ => none
  | steps + 1, t :: rest =>
    if t = .value ∨ t = .comma ∨ t = .listClose then some (.leaf .nothing, rest)
    else readValue .item steps (t :: rest)
  | _, [] => none

/-- Read an item of a list: a value, or a pair that stands for a record of its own. -/
def readItem : Nat → List Token → Option (Value × List Token)
  | 0, _ => none
  | steps + 1, .key :: rest => do
    let (key, ts) ← readPairKey steps rest
    let name ← key.scalar?
    let (value, ts) ← readMarked .pairValue steps ts
    return (.record [(name, value)], ts)
  | steps + 1, ts => readValue .item steps ts

/-- Read the items of a list and its closing bracket. -/
def readItems (first : Bool) : Nat → List Token → Option Items
  | 0, _ => none
  | _, .listClose :: rest => some ([], rest)
  | steps + 1, ts => do
    match ← passComma first ts with
    | .listClose :: rest => return ([], rest)
    | ts =>
      let (item, ts) ← readItem steps ts
      let (more, ts) ← readItems false steps ts
      return (item :: more, ts)

/-- Read a member of a record. A key without a mark has no value. -/
def readMember : Nat → List Token → Option ((Scalar × Value) × List Token)
  | 0, _ => none
  | steps + 1, .key :: rest => do
    let (key, ts) ← readValue .recordKey steps rest
    let name ← key.scalar?
    let (value, ts) ← readMarked .recordValue steps ts
    return ((name, value), ts)
  | steps + 1, ts => do
    let (key, ts) ← readValue .item steps ts
    let name ← key.scalar?
    return ((name, .leaf .nothing), ts)

/-- Read the members of a record and its closing brace. -/
def readMembers (first : Bool) : Nat → List Token → Option Members
  | 0, _ => none
  | _, .recordClose :: rest => some ([], rest)
  | steps + 1, ts => do
    match ← passComma first ts with
    | .recordClose :: rest => return ([], rest)
    | ts =>
      let (member, ts) ← readMember steps ts
      let (more, ts) ← readMembers false steps ts
      return (member :: more, ts)

end

/-- Read the value of a text that begins with these tokens. Between two tokens that are taken there
are at most four steps. -/
def readDocument : List Token → Option (Value × List Token)
  | [] => none
  | .documentStart :: rest =>
    match rest with
    | [] | .documentStart :: _ | .documentEnd :: _ => some (.leaf .nothing, rest)
    | _ => readValue .document (4 * rest.length + 4) rest
  | ts => readValue .document (4 * ts.length + 4) ts

/-- The value that a text is written for. Nothing but marks of its end may follow. -/
def parse? (text : List Char) : Option Value := do
  let ts ← tokens? text
  let (value, rest) ← readDocument ts
  if rest.all (· == .documentEnd) then some value else none

end LayoutWatch.Yaml
