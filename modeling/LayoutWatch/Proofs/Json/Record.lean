import LayoutWatch.Proofs.Json.Parser

/-!
# Records are read back

A record is written from entries, each a name with a value that may be left out. Where no name is
used twice, the members that are read back are those that were written, each under its name.
-/

namespace LayoutWatch.Json

/-! ## Scalars -/

/-- A written text is read back. -/
@[simp] theorem text?_escape (s : String) :
    Scalar.text? (Lexeme.string (escape s.toList)) = some s := by
  change (unescape? (escape s.toList)).map String.ofList = some s
  simp

/-- A written text is read back. -/
@[simp] theorem text?_ofText (s : String) : (ofText s).text? = some s := text?_escape s

/-- A decimal numeral stands for its number. -/
@[simp] theorem natural?_toDigits (n : Nat) :
    Scalar.natural? (Lexeme.number (Nat.toDigits 10 n)) = some n := decimal?_toDigits n

/-- A written number is read back, where it is below the limit. -/
theorem below?_ofNat {n limit : Nat} (h : n < limit) : (ofNat n).below? limit = some n := by
  simp [Tree.below?, ofNat, ofInt, Tree.scalar?, h]

/-- A written word of eight bits is read back. -/
@[simp] theorem word8?_ofNat (n : UInt8) : (ofNat n.toNat).word8? = some n := by
  simp [Tree.word8?, below?_ofNat n.toNat_lt]

/-- A written word of thirty-two bits is read back. -/
@[simp] theorem word32?_ofNat (n : UInt32) : (ofNat n.toNat).word32? = some n := by
  simp [Tree.word32?, below?_ofNat n.toNat_lt]

/-- A written word of sixty-four bits is read back. -/
@[simp] theorem word64?_ofNat (n : UInt64) : (ofNat n.toNat).word64? = some n := by
  simp [Tree.word64?, below?_ofNat n.toNat_lt]

/-- A written count is read back, where it is that of a word. -/
theorem count?_ofNat {n : Nat} (h : n < UInt64.size) : (ofNat n).count? = some n := below?_ofNat h

/-- A written signed word is read back. -/
theorem signed64?_ofInt {n : Int} (hleast : -0x8000000000000000 ≤ n)
    (hgreatest : n ≤ 0x7FFFFFFFFFFFFFFF) : signed64? (ofInt n) = some n := by
  rw [ofInt, signed64?, integer?_numeral]
  exact Option.filter_some_pos (decide_eq_true (by omega))

/-- A written truth value is read back. -/
@[simp] theorem bool?_ofBool (value : Bool) : bool? (ofBool value) = some value := rfl

/-- A choice that is written by its name is read back. -/
theorem choice?_ofText {α : Type} {named : String → Option α} {name : String} {a : α}
    (h : named name = some a) : choice? named (ofText name) = some a := by
  simp [ofText, choice?, h]

/-- A list is read back item by item. -/
theorem list?_ofList_map {α β : Type} {read : Value → Option β} {write : α → Value} {f : α → β}
    {items : List α} (h : ∀ a ∈ items, read (write a) = some (f a)) :
    (ofList write items).list? read = some (items.map f) := by
  rw [ofList, Tree.list?]
  induction items with
  | nil => rfl
  | cons a items ih =>
    obtain ⟨ha, hitems⟩ := List.forall_mem_cons.mp h
    rw [List.map_cons, List.mapM_cons, ha, ih hitems]
    rfl

/-- A list whose items are read back is read back. -/
theorem list?_ofList {α : Type} {read : Value → Option α} {write : α → Value} {items : List α}
    (h : ∀ a ∈ items, read (write a) = some a) :
    (ofList write items).list? read = some items := by
  rw [list?_ofList_map (f := id) h, List.map_id]

/-- A list is built for writing item by item. -/
theorem Written.ofList {α : Type} {write : α → Value} {items : List α}
    (h : ∀ a ∈ items, Written (write a)) : Written (ofList write items) := by
  refine .list fun v hv => ?_
  obtain ⟨a, ha, rfl⟩ := List.mem_map.mp hv
  exact h a ha

/-! ## Records -/

/-- A name with a value that may be left out. -/
abbrev Entry := String × Option Value

namespace Entry

/-- The member that is written. -/
def written (e : Entry) : List Member := presentMember e.1 id e.2

/-- The member that is read. -/
def read? (e : Entry) : Option (String × Value) := e.2.map (e.1, ·)

/-- A written member stems from an entry with a value. -/
theorem mem_written {e : Entry} {m : Member} (h : m ∈ e.written) :
    m.1 = .string (escape e.1.toList) ∧ m.2 ∈ e.2 := by
  obtain ⟨name, value⟩ := e
  cases value with
  | none => cases h
  | some value =>
    obtain rfl := List.mem_singleton.mp h
    exact ⟨rfl, rfl⟩

end Entry

/-- The record of entries. -/
def ofEntries (entries : List Entry) : Value := ofMembers (entries.map Entry.written)

/-- A member that is left out when it is absent is written from its entry. -/
theorem presentMember_eq {α : Type} (name : String) (write : α → Value) (o : Option α) :
    presentMember name write o = Entry.written (name, o.map write) := by
  cases o <;> rfl

/-- A record of written values is one. -/
theorem written_ofEntries {entries : List Entry} (h : ∀ e ∈ entries, ∀ v ∈ e.2, Written v) :
    Written (ofEntries entries) := by
  have hmembers : ∀ m ∈ (entries.map Entry.written).flatten,
      (∃ name, m.1 = .string (escape name)) ∧ Written m.2 := by
    intro m hm
    obtain ⟨_, hl, hm⟩ := List.mem_flatten.mp hm
    obtain ⟨e, he, rfl⟩ := List.mem_map.mp hl
    obtain ⟨hname, hvalue⟩ := Entry.mem_written hm
    exact ⟨⟨_, hname⟩, h e he _ hvalue⟩
  exact .record (fun m hm => (hmembers m hm).1) (fun m hm => (hmembers m hm).2)

/-- A text is no deeper than itself. -/
@[simp] theorem depth_ofText (s : String) : (ofText s).depth = 0 := rfl

/-- A number is no deeper than itself. -/
@[simp] theorem depth_ofNat (n : Nat) : (ofNat n).depth = 0 := rfl

/-- The depth of a list is bounded by that of its items. -/
theorem depthOfItems_le {items : List Value} {bound : Nat} (h : ∀ v ∈ items, v.depth ≤ bound) :
    Tree.depthOfItems items ≤ bound := by
  induction items with
  | nil => exact Nat.zero_le _
  | cons v items ih =>
    obtain ⟨hv, hitems⟩ := List.forall_mem_cons.mp h
    exact Nat.max_le.mpr ⟨hv, ih hitems⟩

/-- The depth of a record is bounded by that of its values. -/
theorem depthOfMembers_le {members : List Member} {bound : Nat}
    (h : ∀ m ∈ members, m.2.depth ≤ bound) : Tree.depthOfMembers members ≤ bound := by
  induction members with
  | nil => exact Nat.zero_le _
  | cons m members ih =>
    obtain ⟨hm, hmembers⟩ := List.forall_mem_cons.mp h
    exact Nat.max_le.mpr ⟨hm, ih hmembers⟩

/-- A record is one deeper than its values. -/
theorem depth_ofEntries_le {entries : List Entry} {bound : Nat}
    (h : ∀ e ∈ entries, ∀ v ∈ e.2, v.depth ≤ bound) : (ofEntries entries).depth ≤ bound + 1 := by
  refine Nat.succ_le_succ (depthOfMembers_le fun m hm => ?_)
  obtain ⟨_, hl, hm⟩ := List.mem_flatten.mp hm
  obtain ⟨e, he, rfl⟩ := List.mem_map.mp hl
  exact h e he _ (Entry.mem_written hm).2

section Reading

variable {entries : List Entry} (hnodup : (entries.map (·.1)).Nodup)

/-- The names of members are read back. -/
theorem mapM_written (entries : List Entry) :
    (entries.map Entry.written).flatten.mapM
      (fun m : Member => (Scalar.text? m.1).map (·, m.2)) =
        some (entries.filterMap Entry.read?) := by
  induction entries with
  | nil => rfl
  | cons e entries ih =>
    obtain ⟨name, value⟩ := e
    cases value with
    | none => exact ih
    | some value =>
      have hname : Scalar.text? (Lexeme.string (escape name.toList)) = some name :=
        text?_escape name
      rw [List.map_cons, List.flatten_cons, Entry.written, presentMember, member,
        List.singleton_append, List.mapM_cons, ih, hname]
      rfl

include hnodup

/-- The members of a record are those of its entries with a value. -/
theorem ofTree?_ofEntries :
    Record.ofTree? (entries.map (·.1)) (ofEntries entries) =
      some ⟨false, entries.filterMap Entry.read?⟩ := by
  have hnames : ∀ l : List Entry, ((l.filterMap Entry.read?).map (·.1)).Sublist (l.map (·.1)) := by
    intro l
    induction l with
    | nil => exact .slnil
    | cons e l ih =>
      obtain ⟨name, value⟩ := e
      cases value with
      | none => exact ih.cons _
      | some value => exact ih.cons_cons _
  have hknown : (entries.filterMap Entry.read?).filter
      (fun m => (entries.map (·.1)).contains m.1) = entries.filterMap Entry.read? := by
    refine List.filter_eq_self.mpr fun m hm => ?_
    rw [List.contains_iff_mem]
    exact (hnames entries).subset (List.mem_map_of_mem hm)
  have hmembers := mapM_written entries
  rw [ofEntries, ofMembers, Record.ofTree?]
  simp only [hmembers, hknown, Option.bind_eq_bind, Option.bind_some,
    (hnames entries).nodup hnodup, if_true]

/-- The member of a name is the value of its entry. -/
theorem lookup_read? (name : String) :
    (entries.filterMap Entry.read?).lookup name = (entries.lookup name).join := by
  induction entries with
  | nil => rfl
  | cons e entries ih =>
    obtain ⟨first, value⟩ := e
    obtain ⟨hfirst, hothers⟩ := List.nodup_cons.mp hnodup
    have hmore := ih hothers
    rw [List.lookup_cons]
    split
    · next hname =>
      obtain rfl : name = first := beq_iff_eq.mp hname
      have habsent : entries.lookup name = none := by
        refine List.lookup_eq_none_iff.mpr fun e he => bne_iff_ne.mpr fun hsame => hfirst ?_
        exact List.mem_map.mpr ⟨e, he, hsame.symm⟩
      cases value with
      | none =>
        rw [List.filterMap_cons_none rfl, hmore, habsent]
        rfl
      | some value => exact List.lookup_cons_self
    · next hname =>
      cases value with
      | none => rw [List.filterMap_cons_none rfl, hmore]
      | some value =>
        have hread : ((first, some value) :: entries).filterMap Entry.read? =
            (first, value) :: entries.filterMap Entry.read? := rfl
        rw [hread, List.lookup_cons, hname, hmore]

end Reading

/-- A record whose members are told by entries. -/
structure Holds (r : Record Lexeme) (entries : List Entry) : Prop where
  /-- The member of a name is the value of its entry. -/
  member?_eq : ∀ name, r.member? name = (entries.lookup name).join

/-- What is read from a written record is read from its entries. -/
theorem bind_ofTree? {entries : List Entry} {names : List String} {α : Type}
    {read : Record Lexeme → Option α} {a : α} (hnames : entries.map (·.1) = names)
    (hnodup : names.Nodup) (hread : ∀ r, Holds r entries → read r = some a) :
    (Record.ofTree? names (ofEntries entries)).bind read = some a := by
  subst hnames
  rw [ofTree?_ofEntries hnodup, Option.bind_some]
  exact hread _ ⟨lookup_read? hnodup⟩

section Members

variable {r : Record Lexeme} {entries : List Entry} (h : Holds r entries) {α : Type} {name : String}
  {read : Value → Option α}

include h

/-- A member that has to be there is read back. -/
theorem Holds.required {v : Value} {a : α} (hentry : entries.lookup name = some (some v))
    (hread : read v = some a) : r.required name read = some a := by
  rw [Record.required, h.member?_eq, hentry, Option.join_some, Option.bind_some, hread]

/-- A member that may be left out is read back where it is there. -/
theorem Holds.defaulted {v : Value} {a absent : α} (hentry : entries.lookup name = some (some v))
    (hread : read v = some a) : r.defaulted name absent read = some a := by
  rw [Record.defaulted, h.member?_eq, hentry, Option.join_some]
  exact hread

/-- A member that is left out stands for its value then. -/
theorem Holds.defaulted_of_absent {absent : α} (hentry : entries.lookup name = some none) :
    r.defaulted name absent read = some absent := by
  rw [Record.defaulted, h.member?_eq, hentry]
  rfl

/-- A member that is left out when it is absent is read back. -/
theorem Holds.optional {write : α → Value} {o : Option α}
    (hentry : entries.lookup name = some (o.map write)) (hread : ∀ a ∈ o, read (write a) = some a)
    (hnull : ∀ a, (write a).isNull = false) : r.optional name read = some o := by
  cases o with
  | none => exact h.defaulted_of_absent hentry
  | some a =>
    refine h.defaulted hentry ?_
    rw [Tree.nullable?, hnull, if_neg Bool.false_ne_true, hread a rfl, Option.map_some]

/-- A member that is written as nothing when it is absent is read back. -/
theorem Holds.nullable {write : α → Value} {o : Option α}
    (hentry : entries.lookup name = some (some (ofOption write o)))
    (hread : ∀ a, read (write a) = some a) (hnull : ∀ a, (write a).isNull = false) :
    r.nullable name read = some o := by
  have hvalue : Tree.nullable? read (ofOption write o) = some o := by
    cases o with
    | none => rfl
    | some a =>
      rw [ofOption, Tree.nullable?, hnull, if_neg Bool.false_ne_true, hread, Option.map_some]
  have hrequired := h.required hentry hvalue
  have hoptional : r.optional name read = some o := h.defaulted hentry hvalue
  rw [Record.nullable, hrequired, hoptional, ite_self]

end Members

end LayoutWatch.Json
