import TapeMachine.Proofs.ErrorDerive.Enumerations

/-! The arguments of generated messages.  A message takes the fields that its placeholders name
(`names_text`); in the message of a tuple, where numbers have become names, these are the fields
whose numbers its placeholders had (`tupleName_mem_iff`).  This decides what stands in the code of a
variant (`eq_tupleArm`, `eq_namedArm`) and of a structure (`generate_of_record`). -/

namespace TapeMachine.ErrorDerive

open Text Message Emitted

namespace Template

/-- A format string whose placeholders have numbers for names. -/
def Positional (t : Template) : Prop :=
  ∀ name ∈ t.names, name ≠ "" ∧ ∀ c ∈ name.toList, Numeral.isDigit c = true

instance (t : Template) : Decidable t.Positional :=
  decidable_of_iff (t.names.all fun name => name ≠ "" && name.toList.all Numeral.isDigit)
    (by simp [Positional])

variable {t : Template}

/-- A field of a tuple is named exactly if its number was. -/
theorem tupleName_mem_iff (h : t.Positional) {count index : Nat} (hIndex : index < count) :
    tupleName index ∈ (t.forTuple count).names ↔ decimal index ∈ t.names := by
  rw [forTuple_names, List.mem_map]
  constructor
  · rintro ⟨name, hName, hRenamed⟩
    rw [Piece.rename] at hRenamed
    split at hRenamed
    case isTrue =>
      obtain rfl := (String.append_right_inj _).1 hRenamed
      exact hName
    case isFalse =>
      have hLetter : 'f' ∈ name.toList := by
        rw [hRenamed, tupleName, String.toList_append]
        exact List.mem_cons_self
      exact absurd ((h name hName).2 'f' hLetter) (by decide)
  · intro hName
    have hNumber : decimal index ∈ numbers count :=
      List.mem_map_of_mem (List.mem_range.2 hIndex)
    refine ⟨decimal index, hName, ?_⟩
    rw [Piece.rename, if_pos hNumber]
    rfl

theorem names_ne_empty (h : t.Positional) (count : Nat) : "" ∉ (t.forTuple count).names := by
  rw [forTuple_names, List.mem_map]
  rintro ⟨name, hName, hRenamed⟩
  rw [Piece.rename] at hRenamed
  split at hRenamed
  · simp at hRenamed
  · exact (h name hName).1 hRenamed

/-- The message of a tuple uses the names of the fields whose numbers it had. -/
theorem exists_names_forTuple (h : t.Positional) (count : Nat) :
    ∃ used, Message.names (Message.forTuple count t.text) = .ok used ∧
      ∀ index ∈ List.range count, tupleName index ∈ used ↔ decimal index ∈ t.names := by
  refine ⟨distinct [] (t.forTuple count).names, ?_, fun index hIndex => ?_⟩
  · rw [forTuple_text, names_text, if_neg (names_ne_empty h count)]
  · rw [(firstUses_distinct _).mem_iff, tupleName_mem_iff h (List.mem_range.1 hIndex)]

theorem exists_names (h : "" ∉ t.names) :
    ∃ used, Message.names t.text = .ok used ∧ FirstUses t.names used :=
  ⟨distinct [] t.names, by rw [names_text, if_neg h], firstUses_distinct t.names⟩

theorem names_eq_error_iff : Message.names t.text = .error .implicitArgument ↔ "" ∈ t.names := by
  rw [names_text]
  split <;> simp [*]

/-- The fields of a tuple whose numbers are in placeholders. -/
def usedFields (t : Template) (count : Nat) : List Nat :=
  (List.range count).filter (decimal · ∈ t.names)

theorem filter_eq_usedFields {count : Nat} {used : List String}
    (h : ∀ index ∈ List.range count, tupleName index ∈ used ↔ decimal index ∈ t.names) :
    (List.range count).filter (tupleName · ∈ used) = t.usedFields count :=
  List.filter_congr fun index hIndex => decide_eq_decide.2 (h index hIndex)

end Template

/-! ### Variants -/

theorem Emitted.tupleArm_congr {variant message : String} {count : Nat} {used used' : Nat → Bool}
    (h : ∀ index ∈ List.range count, used index = used' index) :
    tupleArm variant message count used = tupleArm variant message count used' := by
  have hBound : ((List.range count).map fun index =>
        [Lexeme.name (if used index then tupleName index else "_")]) =
      (List.range count).map fun index =>
        [Lexeme.name (if used' index then tupleName index else "_")] :=
    List.map_congr_left fun index hIndex => by rw [h index hIndex]
  rw [tupleArm, tupleArm, hBound, List.filter_congr h]

section Variants

variable {variant : Variant} {fields : List Field} {t : Template} {code : Code}

/-- A variant that is a tuple binds and passes the fields whose numbers are in placeholders. -/
theorem Variant.ShownBy.eq_tupleArm (h : variant.ShownBy code) (hSays : variant.Says t.text)
    (hFields : variant.fields = .tuple fields) (hPositional : t.Positional) :
    code = tupleArm variant.name (forTuple fields.length t.text) fields.length
      (decimal · ∈ t.names) := by
  obtain ⟨used, hUsed, hIff⟩ := Template.exists_names_forTuple hPositional fields.length
  rw [rightUnique h (.tuple hSays hFields hUsed)]
  exact tupleArm_congr fun index hIndex => decide_eq_decide.2 (hIff index hIndex)

/-- A variant with named fields binds and passes those that are in placeholders. -/
theorem Variant.ShownBy.eq_namedArm (h : variant.ShownBy code) (hSays : variant.Says t.text)
    (hFields : variant.fields = .named fields) (hNames : "" ∉ t.names) :
    code = namedArm variant.name t.text ((fields.map Field.name).filter (· ∈ t.names)) := by
  obtain ⟨used, hUsed, hUses⟩ := Template.exists_names hNames
  rw [rightUnique h (.named hSays hFields hUsed)]
  simp only [hUses.mem_iff]

end Variants

/-- The code of an enumeration in which an arm stands between those of the variants before and
after. -/
def Item.HasArm (item : Item) (before after : List Variant) (arm : Code) : Prop :=
  ∃ (earlier later : List Code) (rest : Code),
    List.Forall₂ Variant.ShownBy before earlier ∧ List.Forall₂ Variant.ShownBy after later ∧
    item.generate = .ok
      (displayBlock item (matchSelf (earlier.flatten ++ arm ++ later.flatten)) ++ rest)

theorem Item.exists_hasArm {item : Item} {before after : List Variant} {variant : Variant}
    (h : item.body = .enumeration (before ++ variant :: after))
    (hAccepted : ∀ other ∈ before ++ variant :: after, other.Accepted) :
    ∃ arm, variant.ShownBy arm ∧ item.HasArm before after arm := by
  obtain ⟨arms, sources, conversions, hArms, -, -, hCode⟩ := exists_generate h hAccepted
  have hEarlier := List.forall₂_take before.length hArms
  have hRest := List.forall₂_drop before.length hArms
  rw [List.take_left] at hEarlier
  rw [List.drop_left] at hRest
  obtain ⟨arm, later, hArm, hLater, hDrop⟩ := List.forall₂_cons_left_iff.1 hRest
  rw [← List.take_append_drop before.length arms, hDrop, List.flatten_append, List.flatten_cons,
    ← List.append_assoc, List.append_assoc (displayBlock _ _)] at hCode
  exact ⟨arm, hArm, _, later, _, hEarlier, hLater, hCode⟩

/-! ### Structures -/

def Item.Says (item : Item) (message : String) : Prop :=
  (item.attributes.find? (·.path = "error")).map Attribute.argument =
    some (.list [.string message])

/-- The code that gives the source of a structure. -/
inductive Fields.SourceReturnedBy (fields : Fields) : Code → Prop
  | none (h : ∀ field ∈ fields.toList, ¬field.HoldsSource) : SourceReturnedBy fields []
  | tuple {index : Nat} (h : fields.SourceAt (.tuple index)) :
      SourceReturnedBy fields (sourceFunction
        (found [.mark '&', .name "self", .mark '.', .number (decimal index)]))
  | named {field : String} (h : fields.SourceAt (.named field)) :
      SourceReturnedBy fields (sourceFunction
        (found [.mark '&', .name "self", .mark '.', .name field]))

theorem Fields.sourceReturnedBy (fields : Fields) :
    fields.SourceReturnedBy (fields.sourceMember?.elim [] fun member =>
      sourceFunction (found (.mark '&' :: member.code))) := by
  cases hMember : fields.sourceMember? with
  | none => exact .none (sourceMember?_eq_none_iff.1 hMember)
  | some member =>
    have hAt := sourceMember?_eq_some_iff.1 hMember
    rw [Option.elim_some]
    cases member with
    | tuple index =>
      rw [Member.code_tuple]
      exact .tuple hAt
    | named field =>
      rw [Member.code_named]
      exact .named hAt

section Records

variable {item : Item} {fields : List Field} {t : Template}

theorem expandFields_tuple (h : t.Positional) :
    expandFields (.tuple fields) t.text = .ok ⟨forTuple fields.length t.text,
      some ((t.usedFields fields.length).map fun index => (tupleName index, .tuple index)),
      (Fields.tuple fields).sourceMember?⟩ := by
  obtain ⟨used, hUsed, hIff⟩ := Template.exists_names_forTuple h fields.length
  rw [← Template.filter_eq_usedFields hIff]
  show (names (forTuple fields.length t.text)).bind _ = _
  rw [hUsed]
  simp only [Except.bind, List.filter_map]
  rfl

theorem expandFields_named (h : "" ∉ t.names) :
    expandFields (.named fields) t.text = .ok ⟨t.text,
      some (((fields.map Field.name).filter (· ∈ t.names)).map fun name => (name, .named name)),
      (Fields.named fields).sourceMember?⟩ := by
  obtain ⟨used, hUsed, hUses⟩ := Template.exists_names h
  show (names t.text).bind _ = _
  rw [hUsed]
  simp only [Except.bind, hUses.mem_iff]
  rfl

/-- The code of a structure that passes the given values to its message. -/
def Item.HasBody (item : Item) (fields : Fields) (message : String)
    (values : List (String × Code)) : Prop :=
  ∃ source, fields.SourceReturnedBy source ∧
    item.generate = .ok (displayBlock item (write message (passing values))
      ++ errorBlock item source)

theorem generate_of_record {fields : Fields} {text message : String}
    {arguments : List (String × Member)} (hBody : item.body = .record fields)
    (hSays : item.Says text)
    (hExpand : expandFields fields text = .ok ⟨message, some arguments, fields.sourceMember?⟩) :
    item.HasBody fields message (arguments.map fun (name, member) => (name, member.code)) := by
  refine ⟨_, fields.sourceReturnedBy, ?_⟩
  have hMessage : ofAttributes s!"type `{item.name}`" item.attributes = .ok text := by
    rw [ofAttributes_eq, hSays]
    rfl
  have hRecord : item.expand = .ok (.record ⟨message, some arguments, fields.sourceMember?⟩) := by
    rw [Item.expand, hBody]
    simp only [hMessage]
    show (expandFields fields text).bind _ = _
    rw [hExpand]
    rfl
  rw [Item.generate, hRecord]
  exact congrArg Except.ok (StructExpansion.code_eq item _)

end Records

/-- The names that a format string uses are the distinct ones in its placeholders, in the order in
which they first occur, and there is an error exactly if one of them is empty.  So the code of a
tuple passes to its message the fields whose numbers occur in placeholders, and an arm of a variant
binds no others; and where fields have names, those are passed whose names occur, in the order of
the fields. -/
theorem message_takes_placeholders (t : Template) :
    (names t.text = .error .implicitArgument ↔ "" ∈ t.names) ∧
    ("" ∉ t.names → ∃ used, names t.text = .ok used ∧ FirstUses t.names used) ∧
    (∀ (item : Item) (before after : List Variant) (variant : Variant) (fields : List Field),
      item.body = .enumeration (before ++ variant :: after) →
      (∀ other ∈ before ++ variant :: after, other.Accepted) → variant.Says t.text →
      (variant.fields = .tuple fields → t.Positional →
        item.HasArm before after (tupleArm variant.name (forTuple fields.length t.text)
          fields.length (decimal · ∈ t.names))) ∧
      (variant.fields = .named fields → "" ∉ t.names →
        item.HasArm before after (namedArm variant.name t.text
          ((fields.map Field.name).filter (· ∈ t.names))))) ∧
    ∀ (item : Item) (fields : List Field), item.Says t.text →
      (item.body = .record (.tuple fields) → t.Positional →
        item.HasBody (.tuple fields) (forTuple fields.length t.text)
          ((t.usedFields fields.length).map fun index =>
            (tupleName index, [.name "self", .mark '.', .number (decimal index)]))) ∧
      (item.body = .record (.named fields) → "" ∉ t.names →
        item.HasBody (.named fields) t.text
          (((fields.map Field.name).filter (· ∈ t.names)).map fun name =>
            (name, [.name "self", .mark '.', .name name]))) := by
  refine ⟨Template.names_eq_error_iff, Template.exists_names, ?_, ?_⟩
  · intro item before after variant fields hBody hAccepted hSays
    obtain ⟨arm, hArm, hCode⟩ := Item.exists_hasArm hBody hAccepted
    refine ⟨fun hFields hPositional => ?_, fun hFields hNames => ?_⟩
    · rwa [← hArm.eq_tupleArm hSays hFields hPositional]
    · rwa [← hArm.eq_namedArm hSays hFields hNames]
  · intro item fields hSays
    refine ⟨fun hBody hPositional => ?_, fun hBody hNames => ?_⟩
    · have hCode := generate_of_record hBody hSays (expandFields_tuple hPositional)
      simpa only [List.map_map, Function.comp_def, Member.code_tuple] using hCode
    · have hCode := generate_of_record hBody hSays (expandFields_named hNames)
      simpa only [List.map_map, Function.comp_def, Member.code_named] using hCode

/-- A format string that shows two of three fields, and the number of the third. -/
def swapped : Template where
  pieces := [.placeholder "1" none, .literal ' ', .openBrace, .literal '2', .closeBrace,
    .placeholder "0" (some "?"), .placeholder "1" (some "")]
  wellFormed := by decide

/-- Three fields, of which the last holds a source. -/
def threeFields : Fields :=
  .tuple [⟨"", [.name "u8"], []⟩, ⟨"", [.name "u8"], []⟩, ⟨"", [.name "Cause"], ["source"]⟩]

/-- An enumeration with a variant that shows `swapped`. -/
def swapError : Item :=
  ⟨"SwapError", [], [], [],
    .enumeration [⟨"Swap", [⟨"error", .list [.string swapped.text]⟩], threeFields⟩]⟩

/-- A structure that shows `swapped`. -/
def swapRecord : Item :=
  ⟨"SwapRecord", [⟨"error", .list [.string swapped.text]⟩], [], [], .record threeFields⟩

theorem message_takes_placeholders_swapped :
    swapped.text = "\x7b1\x7d \x7b\x7b2\x7d\x7d\x7b0:?\x7d\x7b1:\x7d" ∧
    (∃ used, names swapped.text = .ok used ∧ FirstUses ["1", "0", "1"] used) ∧
    (∃ rest, swapError.generate = .ok (List.flatMap Code.ofText [
      "impl ::std::fmt::Display for SwapError \x7b",
      "  fn fmt(&self, f: &mut ::std::fmt::Formatter<'_>) -> ::std::fmt::Result \x7b",
      "    match self \x7b",
      "      Self::Swap(f0, f1, _) =>",
      "        write!(f, \"\x7bf1\x7d \x7b\x7bf2\x7d\x7d\x7bf0:?\x7d\x7bf1:\x7d\",",
      "          f0 = f0, f1 = f1),",
      "    \x7d",
      "  \x7d",
      "\x7d"] ++ rest)) ∧
    swapRecord.generate = .ok (List.flatMap Code.ofText [
      "impl ::std::fmt::Display for SwapRecord \x7b",
      "  fn fmt(&self, f: &mut ::std::fmt::Formatter<'_>) -> ::std::fmt::Result \x7b",
      "    write!(f, \"\x7bf1\x7d \x7b\x7bf2\x7d\x7d\x7bf0:?\x7d\x7bf1:\x7d\",",
      "      f0 = self.0, f1 = self.1)",
      "  \x7d",
      "\x7d",
      "impl ::std::error::Error for SwapRecord \x7b",
      "  fn source(&self) -> ::std::option::Option<&(dyn ::std::error::Error + 'static)> \x7b",
      "    ::std::option::Option::Some(&self.2 as &(dyn ::std::error::Error + 'static))",
      "  \x7d",
      "\x7d"]) := by
  obtain ⟨-, hNames, hVariants, hRecords⟩ := message_takes_placeholders swapped
  refine ⟨by decide +kernel, hNames (by decide), ?_, ?_⟩
  · obtain ⟨earlier, later, rest, hEarlier, hLater, hCode⟩ :=
      (hVariants swapError [] [] _ _ rfl (by decide +kernel) rfl).1 rfl (by decide)
    cases hEarlier
    cases hLater
    refine ⟨rest, hCode.trans (congrArg (fun shown => Except.ok (shown ++ rest)) ?_)⟩
    simp only [List.flatMap_cons, List.flatMap_nil]
    repeat rw [Code.ofText_ofList]
    decide +kernel
  · obtain ⟨source, hSource, hCode⟩ := (hRecords swapRecord _ rfl).1 rfl (by decide)
    have hAt : threeFields.SourceAt (.tuple 2) := Fields.sourceMember?_eq_some_iff.1 (by decide)
    cases hSource with
    | none hNone => exact absurd (Fields.sourceMember?_eq_none_iff.2 hNone) (by decide)
    | named hOther => cases Fields.SourceAt.rightUnique hOther hAt
    | tuple hOther =>
      cases Fields.SourceAt.rightUnique hOther hAt
      refine hCode.trans (congrArg Except.ok ?_)
      simp only [List.flatMap_cons, List.flatMap_nil]
      repeat rw [Code.ofText_ofList]
      decide +kernel

end TapeMachine.ErrorDerive
