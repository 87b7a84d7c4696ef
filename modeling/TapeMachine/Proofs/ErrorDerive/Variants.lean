import TapeMachine.Proofs.ErrorDerive.Emitted
import TapeMachine.Proofs.ErrorDerive.Implicit
import TapeMachine.Proofs.Outcome

/-! The variants of an enumeration, each for itself.  `Offends` says what is wrong with a variant,
and is exactly what stops its expansion (`expansion_eq_error_iff`).  `ShownBy`, `SourceGivenBy` and
`ConvertedBy` say what code a variant contributes, in the forms of `Emitted`: the parts of its
expansion have such a form (`shownBy_of_display`), and there is a source or a conversion exactly if
a field is marked for it (`source?_cases`, `conversion_cases`). -/

namespace TapeMachine.ErrorDerive

open Message

/-! ### Faults -/

/-- One literal. -/
inductive Code.IsLiteral : Code → Prop
  | string (value : String) : IsLiteral [.string value]
  | quoted (text : String) : IsLiteral [.quoted text]
  | number (text : String) : IsLiteral [.number text]
  | negative (text : String) : IsLiteral [.mark '-', .number text]
  | true : IsLiteral [.name "true"]
  | false : IsLiteral [.name "false"]

/-- What is wrong with the argument of an attribute that should give a message. -/
inductive Argument.Faulty : Argument → DeriveError → Prop
  | none : Faulty .none .notAList
  | value (text : String) : Faulty (.value text) .notAList
  | notALiteral {code : Code} (h : ¬code.IsLiteral) : Faulty (.list code) .notALiteral
  | notAString {code : Code} (h : code.IsLiteral) (hString : ∀ value, code ≠ [.string value]) :
      Faulty (.list code) .notAString

def Field.HoldsSource (field : Field) : Prop :=
  "source" ∈ field.attributes ∨ "from" ∈ field.attributes

instance (field : Field) : Decidable field.HoldsSource :=
  inferInstanceAs (Decidable (_ ∨ _))

namespace Variant

/-- The argument of the first attribute with the path `error`. -/
def messageArgument? (variant : Variant) : Option Argument :=
  (variant.attributes.find? (·.path = "error")).map Attribute.argument

def Says (variant : Variant) (message : String) : Prop :=
  variant.messageArgument? = some (.list [.string message])

def HasSource (variant : Variant) : Prop :=
  ∃ field ∈ variant.fields.toList, field.HoldsSource

def HasConversion (variant : Variant) : Prop :=
  ∃ field ∈ variant.fields.toList, "from" ∈ field.attributes

instance (variant : Variant) : Decidable variant.HasSource :=
  inferInstanceAs (Decidable (∃ field ∈ variant.fields.toList, field.HoldsSource))

instance (variant : Variant) : Decidable variant.HasConversion :=
  inferInstanceAs (Decidable (∃ field ∈ variant.fields.toList, "from" ∈ field.attributes))

theorem HasConversion.fields_ne_unit {variant : Variant} (h : variant.HasConversion) :
    variant.fields ≠ .unit := by
  obtain ⟨field, hField, -⟩ := h
  intro hUnit
  rw [hUnit] at hField
  cases hField

/-- What is wrong with a variant.  A fault counts only if those before it are absent. -/
inductive Offends (variant : Variant) : DeriveError → Prop
  | missing (h : variant.messageArgument? = none) :
      Offends variant (.missingMessage s!"variant `{variant.name}`")
  | faulty {argument : Argument} {error : DeriveError}
      (h : variant.messageArgument? = some argument) (hFaulty : argument.Faulty error) :
      Offends variant error
  | implicit {message : String} (h : variant.Says message) (hFields : variant.fields ≠ .unit)
      (hImplicit : Implicit message.toList) : Offends variant .implicitArgument
  | crowded {message : String} (h : variant.Says message) (hNamed : ¬Implicit message.toList)
      (hFrom : variant.HasConversion) (hCount : variant.fields.toList.length ≠ 1) :
      Offends variant .crowdedConversion

def Accepted (variant : Variant) : Prop :=
  ∀ error, ¬variant.Offends error

end Variant

/-! ### Code -/

section Code

open Emitted

/-- The code that shows one variant: its message, with those of its fields that the message uses. -/
inductive Variant.ShownBy (variant : Variant) : Code → Prop
  | unit {message : String} (hMessage : variant.Says message) (hFields : variant.fields = .unit) :
      ShownBy variant (unitArm variant.name message)
  | tuple {message : String} {fields : List Field} {used : List String}
      (hMessage : variant.Says message) (hFields : variant.fields = .tuple fields)
      (hUsed : names (forTuple fields.length message) = .ok used) :
      ShownBy variant (tupleArm variant.name (forTuple fields.length message) fields.length
        (tupleName · ∈ used))
  | named {message : String} {fields : List Field} {used : List String}
      (hMessage : variant.Says message) (hFields : variant.fields = .named fields)
      (hUsed : names message = .ok used) :
      ShownBy variant
        (namedArm variant.name message ((fields.map Field.name).filter (· ∈ used)))

/-- The first of the marked fields. -/
inductive Fields.SourceAt : Fields → Member → Prop
  | tuple {before after : List Field} {field : Field} (hField : field.HoldsSource)
      (hFirst : ∀ other ∈ before, ¬other.HoldsSource) :
      SourceAt (.tuple (before ++ field :: after)) (.tuple before.length)
  | named {before after : List Field} {field : Field} (hField : field.HoldsSource)
      (hFirst : ∀ other ∈ before, ¬other.HoldsSource) :
      SourceAt (.named (before ++ field :: after)) (.named field.name)

/-- The code that gives the source of one variant. -/
inductive Variant.SourceGivenBy (variant : Variant) : Code → Prop
  | tuple {index : Nat} (h : variant.fields.SourceAt (.tuple index)) :
      SourceGivenBy variant (tupleSource variant.name index)
  | named {field : String} (h : variant.fields.SourceAt (.named field)) :
      SourceGivenBy variant (namedSource variant.name field)

/-- The code that converts values to one variant, which has no field but the one they are put in. -/
inductive Variant.ConvertedBy (item : Item) (variant : Variant) : Code → Prop
  | tuple {field : Field} (hFields : variant.fields = .tuple [field])
      (hFrom : "from" ∈ field.attributes) :
      ConvertedBy item variant (fromBlock item field.type
        (variantOfSelf variant.name ++ [.mark '(', .name "value", .mark ')']))
  | named {field : Field} (hFields : variant.fields = .named [field])
      (hFrom : "from" ∈ field.attributes) :
      ConvertedBy item variant (fromBlock item field.type
        (variantOfSelf variant.name
          ++ [.mark '\x7b', .name field.name, .mark ':', .name "value", .mark '\x7d']))

end Code

/-! ### Messages -/

section Messages

variable {code : Code} {argument : Argument} {error : DeriveError}

theorem ofCode_of_isLiteral (h : code.IsLiteral) (hString : ∀ value, code ≠ [.string value]) :
    ofCode code = .error .notAString := by
  cases h with
  | string value => exact absurd rfl (hString value)
  | _ => rfl

theorem ofCode_of_not_isLiteral (h : ¬code.IsLiteral) : ofCode code = .error .notALiteral := by
  fun_cases ofCode code with
  | case1 value => exact absurd (.string value) h
  | case2 text => exact absurd (.number text) h
  | case3 text => exact absurd (.quoted text) h
  | case4 text => exact absurd (.negative text) h
  | case5 word hWord =>
    rcases hWord with rfl | rfl
    · exact absurd .true h
    · exact absurd .false h
  | case6 | case7 => rfl

/-- The message that the argument of an attribute gives. -/
def Argument.read : Argument → Except DeriveError String
  | .list code => ofCode code
  | .none | .value _ => .error .notAList

theorem Argument.Faulty.read_eq (h : argument.Faulty error) : argument.read = .error error := by
  cases h with
  | none | value => rfl
  | notALiteral h => exact ofCode_of_not_isLiteral h
  | notAString h hString => exact ofCode_of_isLiteral h hString

theorem Argument.faulty_or (argument : Argument) :
    (∃ error, argument.Faulty error) ∨ ∃ message, argument = .list [.string message] := by
  cases argument with
  | none => exact .inl ⟨_, .none⟩
  | value text => exact .inl ⟨_, .value text⟩
  | list code =>
    by_cases hLiteral : code.IsLiteral
    case neg => exact .inl ⟨_, .notALiteral hLiteral⟩
    case pos =>
      by_cases hString : ∃ value, code = [.string value]
      · obtain ⟨value, rfl⟩ := hString
        exact .inr ⟨value, rfl⟩
      · exact .inl ⟨_, .notAString hLiteral fun value h => hString ⟨value, h⟩⟩

theorem ofAttributes_eq (target : String) (attributes : List Attribute) :
    ofAttributes target attributes =
      ((attributes.find? (·.path = "error")).map Attribute.argument).elim
        (.error (.missingMessage target)) Argument.read := by
  induction attributes with
  | nil => rfl
  | cons first rest ih =>
    rw [ofAttributes]
    split
    case isTrue hPath =>
      rw [List.find?_cons_of_pos (by simpa using hPath)]
      rfl
    case isFalse hPath => rw [List.find?_cons_of_neg (by simpa using hPath), ih]

end Messages

namespace Variant

/-- The message of a variant, or what is wrong with it. -/
def message (variant : Variant) : Except DeriveError String :=
  ofAttributes s!"variant `{variant.name}`" variant.attributes

variable {variant : Variant} {text : String} {error : DeriveError}

theorem message_eq (variant : Variant) :
    variant.message = variant.messageArgument?.elim
      (.error (.missingMessage s!"variant `{variant.name}`")) Argument.read :=
  ofAttributes_eq _ _

theorem message_eq_ok_iff : variant.message = .ok text ↔ variant.Says text := by
  rw [message_eq, Says]
  cases variant.messageArgument? with
  | none => simp
  | some argument =>
    rw [Option.elim_some, Option.some_inj]
    constructor
    · intro hRead
      rcases argument.faulty_or with ⟨error, hFaulty⟩ | ⟨value, rfl⟩
      · rw [hFaulty.read_eq] at hRead
        cases hRead
      · cases hRead
        rfl
    · rintro rfl
      rfl

theorem failsWith_message : Outcome.FailsWith variant.Offends variant.message := by
  rw [message_eq]
  cases h : variant.messageArgument? with
  | none => exact .error (.missing h)
  | some argument =>
    rcases argument.faulty_or with ⟨error, hFaulty⟩ | ⟨value, rfl⟩
    · rw [Option.elim_some, hFaulty.read_eq]
      exact .error (.faulty h hFaulty)
    · exact .ok value

/-! ### Display arms -/

theorem display_of_message_error (h : variant.message = .error error) :
    variant.display = .error error := by
  rw [display, ← message, h]
  rfl

theorem display_of_unit (h : variant.Says text) (hFields : variant.fields = .unit) :
    variant.display = .ok ⟨variant.name, .unit, text, []⟩ := by
  rw [display, ← message, message_eq_ok_iff.2 h, hFields]
  rfl

theorem display_of_tuple {fields : List Field} (h : variant.Says text)
    (hFields : variant.fields = .tuple fields) :
    variant.display = (names (forTuple fields.length text)).map fun used =>
      let members := (List.range fields.length).map tupleName
      ⟨variant.name, .tuple (members.map fun name => if name ∈ used then some name else none),
        forTuple fields.length text, members.filter (· ∈ used)⟩ := by
  rw [display, ← message, message_eq_ok_iff.2 h, hFields]
  show (names _).bind _ = _
  cases names (forTuple fields.length text) <;> rfl

theorem display_of_named {fields : List Field} (h : variant.Says text)
    (hFields : variant.fields = .named fields) :
    variant.display = (names text).map fun used =>
      let members := (fields.map Field.name).filter (· ∈ used)
      ⟨variant.name, .named members, text, members⟩ := by
  rw [display, ← message, message_eq_ok_iff.2 h, hFields]
  show (names _).bind _ = _
  cases names text <;> rfl

/-- A variant with brackets is shown if the names in its message can be told, which numbers that
become names do not change. -/
theorem exists_display_eq_map (h : variant.Says text) (hFields : variant.fields ≠ .unit) :
    ∃ named arm, (Implicit named.toList ↔ Implicit text.toList) ∧
      variant.display = (names named).map arm := by
  cases hKind : variant.fields with
  | unit => exact absurd hKind hFields
  | tuple fields =>
    exact ⟨_, _, implicit_forTuple_iff fields.length, display_of_tuple h hKind⟩
  | named fields => exact ⟨_, _, Iff.rfl, display_of_named h hKind⟩

theorem display_eq_error_iff (h : variant.Says text) :
    variant.display = .error error ↔
      variant.fields ≠ .unit ∧ Implicit text.toList ∧ error = .implicitArgument := by
  by_cases hFields : variant.fields = .unit
  · simp [display_of_unit h hFields, hFields]
  · obtain ⟨named, arm, hNamed, hDisplay⟩ := exists_display_eq_map h hFields
    rw [hDisplay, Outcome.map_eq_error_iff, names_eq_error_implicit_iff, hNamed]
    simp [hFields]

theorem failsWith_display : Outcome.FailsWith variant.Offends variant.display := by
  intro error hError
  cases hMessage : variant.message with
  | error e =>
    rw [display_of_message_error hMessage] at hError
    cases hError
    exact failsWith_message error hMessage
  | ok text =>
    have hSays := message_eq_ok_iff.1 hMessage
    obtain ⟨hFields, hImplicit, rfl⟩ := (display_eq_error_iff hSays).1 hError
    exact .implicit hSays hFields hImplicit

theorem exists_display (h : variant.Says text) (hNamed : ¬Implicit text.toList) :
    ∃ arm, variant.display = .ok arm := by
  cases hDisplay : variant.display with
  | ok arm => exact ⟨arm, rfl⟩
  | error e => exact absurd ((display_eq_error_iff h).1 hDisplay).2.1 hNamed

theorem says_of_display {arm : DisplayArm} (h : variant.display = .ok arm) :
    ∃ text, variant.Says text ∧ (variant.fields ≠ .unit → ¬Implicit text.toList) := by
  obtain ⟨text, hMessage, -⟩ := Outcome.bind_eq_ok_iff.1 h
  have hSays := message_eq_ok_iff.1 hMessage
  refine ⟨text, hSays, fun hFields hImplicit => ?_⟩
  rw [(display_eq_error_iff hSays).2 ⟨hFields, hImplicit, rfl⟩] at h
  cases h

theorem shownBy_of_display {arm : DisplayArm} (h : variant.display = .ok arm) :
    variant.ShownBy arm.code := by
  obtain ⟨text, hSays, -⟩ := says_of_display h
  cases hFields : variant.fields with
  | unit =>
    rw [display_of_unit hSays hFields] at h
    cases h
    rw [DisplayArm.code_unit]
    exact .unit hSays hFields
  | tuple fields =>
    rw [display_of_tuple hSays hFields] at h
    obtain ⟨used, hUsed, rfl⟩ := Outcome.map_eq_ok_iff.1 h
    rw [DisplayArm.code_tuple]
    exact .tuple hSays hFields hUsed
  | named fields =>
    rw [display_of_named hSays hFields] at h
    obtain ⟨used, hUsed, rfl⟩ := Outcome.map_eq_ok_iff.1 h
    rw [DisplayArm.code_named]
    exact .named hSays hFields hUsed

theorem Says.unique {text' : String} (h : variant.Says text) (h' : variant.Says text') :
    text = text' := by
  cases h.symm.trans h'
  rfl

/-- Only one code shows a variant. -/
theorem ShownBy.rightUnique : Relator.RightUnique ShownBy := by
  intro variant code code' h h'
  cases h with
  | unit hSays hFields =>
    cases h' with
    | unit hSays' => rw [hSays.unique hSays']
    | tuple _ hFields' | named _ hFields' => cases hFields.symm.trans hFields'
  | tuple hSays hFields hUsed =>
    cases h' with
    | tuple hSays' hFields' hUsed' =>
      cases hFields.symm.trans hFields'
      obtain rfl := hSays.unique hSays'
      cases hUsed.symm.trans hUsed'
      rfl
    | unit _ hFields' | named _ hFields' => cases hFields.symm.trans hFields'
  | named hSays hFields hUsed =>
    cases h' with
    | named hSays' hFields' hUsed' =>
      cases hFields.symm.trans hFields'
      obtain rfl := hSays.unique hSays'
      cases hUsed.symm.trans hUsed'
      rfl
    | unit _ hFields' | tuple _ hFields' => cases hFields.symm.trans hFields'

end Variant

/-! ### Sources -/

theorem Field.marked_iff {field : Field} :
    (field.attributes.contains "source" || field.attributes.contains "from") = true ↔
      field.HoldsSource := by
  simp only [Bool.or_eq_true, List.contains_iff_mem, HoldsSource]

namespace Fields

variable {fields : Fields}

theorem forall_zipIdx_unmarked_iff {fields : List Field} {start : Nat} :
    (∀ entry ∈ fields.zipIdx start, ¬(entry.1.attributes.contains "source" ||
        entry.1.attributes.contains "from") = true) ↔
      ∀ field ∈ fields, ¬field.HoldsSource := by
  conv => rhs; rw [← List.zipIdx_map_fst start fields, List.forall_mem_map]
  simp only [Field.marked_iff]

theorem source?_eq_none_iff :
    fields.source? = none ↔ ∀ field ∈ fields.toList, ¬field.HoldsSource := by
  rw [source?, Option.map_eq_none_iff, List.find?_eq_none]
  exact forall_zipIdx_unmarked_iff

/-- The source is in the first field that is marked, and its index counts the fields before. -/
theorem exists_of_source?_eq_some {index : Nat} {field : Field}
    (h : fields.source? = some (index, field)) :
    ∃ before after, fields.toList = before ++ field :: after ∧ before.length = index ∧
      field.HoldsSource ∧ ∀ other ∈ before, ¬other.HoldsSource := by
  rw [source?, Option.map_eq_some_iff] at h
  obtain ⟨entry, hEntry, ⟨⟩⟩ := h
  obtain ⟨hMarked, entries, others, hSplit, hBefore⟩ := List.find?_eq_some_iff_append.1 hEntry
  obtain ⟨before, rest, hFields, rfl, hRest⟩ := List.zipIdx_eq_append_iff.1 hSplit
  obtain ⟨first, after, rfl, hFirst, -⟩ := List.zipIdx_eq_cons_iff.1 hRest.symm
  rw [hFirst] at hMarked ⊢
  refine ⟨before, after, hFields, (Nat.zero_add _).symm, Field.marked_iff.1 hMarked, ?_⟩
  exact forall_zipIdx_unmarked_iff.1 fun entry h => by simpa using hBefore entry h

theorem source?_eq_some {before after : List Field} {field : Field}
    (hFields : fields.toList = before ++ field :: after) (hField : field.HoldsSource)
    (hFirst : ∀ other ∈ before, ¬other.HoldsSource) :
    fields.source? = some (before.length, field) := by
  have hBefore := List.find?_eq_none.2 ((@forall_zipIdx_unmarked_iff before 0).2 hFirst)
  rw [source?, hFields, List.zipIdx_append, List.find?_append, hBefore, List.zipIdx_cons,
    Option.none_or, List.find?_cons_of_pos (by exact Field.marked_iff.2 hField)]
  simp

theorem sourceMember?_eq_some_iff {member : Member} :
    fields.sourceMember? = some member ↔ fields.SourceAt member := by
  constructor
  · intro h
    obtain ⟨⟨index, field⟩, hSource, rfl⟩ := Option.map_eq_some_iff.1 h
    obtain ⟨before, after, hFields, rfl, hField, hFirst⟩ := exists_of_source?_eq_some hSource
    cases fields with
    | unit => exact absurd hFields.symm (by simp [toList])
    | tuple fields =>
      obtain rfl : fields = _ := hFields
      exact .tuple hField hFirst
    | named fields =>
      obtain rfl : fields = _ := hFields
      exact .named hField hFirst
  · intro h
    cases h with
    | tuple hField hFirst | named hField hFirst =>
      rw [sourceMember?, source?_eq_some rfl hField hFirst]
      rfl

theorem sourceMember?_eq_none_iff :
    fields.sourceMember? = none ↔ ∀ field ∈ fields.toList, ¬field.HoldsSource := by
  rw [sourceMember?, Option.map_eq_none_iff, source?_eq_none_iff]

theorem SourceAt.rightUnique : Relator.RightUnique SourceAt := fun _ _ _ h h' =>
  Option.some_inj.1
    ((sourceMember?_eq_some_iff.2 h).symm.trans (sourceMember?_eq_some_iff.2 h'))

end Fields

namespace Variant

variable {variant : Variant}

theorem source?_cases (variant : Variant) :
    (¬variant.HasSource ∧ variant.source? = none) ∨
      ∃ arm, variant.HasSource ∧ variant.source? = some arm ∧ variant.SourceGivenBy arm.code := by
  rw [source?]
  cases hMember : variant.fields.sourceMember? with
  | none =>
    refine .inl ⟨?_, rfl⟩
    rintro ⟨field, hField, hMarked⟩
    exact Fields.sourceMember?_eq_none_iff.1 hMember field hField hMarked
  | some member =>
    have hAt := Fields.sourceMember?_eq_some_iff.1 hMember
    have hHas : variant.HasSource := by
      rw [HasSource]
      by_contra hNone
      push Not at hNone
      rw [Fields.sourceMember?_eq_none_iff.2 hNone] at hMember
      cases hMember
    refine .inr ⟨_, hHas, rfl, ?_⟩
    cases member with
    | tuple index =>
      rw [SourceArm.code_tuple]
      exact .tuple hAt
    | named field =>
      rw [SourceArm.code_named]
      exact .named hAt

theorem SourceGivenBy.rightUnique : Relator.RightUnique SourceGivenBy := by
  intro variant code code' h h'
  cases h with
  | tuple hAt =>
    cases h' with
    | tuple hAt' =>
      cases Fields.SourceAt.rightUnique hAt hAt'
      rfl
    | named hAt' => cases Fields.SourceAt.rightUnique hAt hAt'
  | named hAt =>
    cases h' with
    | tuple hAt' => cases Fields.SourceAt.rightUnique hAt hAt'
    | named hAt' =>
      cases Fields.SourceAt.rightUnique hAt hAt'
      rfl

/-! ### Conversions -/

theorem conversion_cases (variant : Variant) :
    (¬variant.HasConversion ∧ variant.conversion = .ok none) ∨
    (variant.HasConversion ∧ variant.fields.toList.length ≠ 1 ∧
      variant.conversion = .error .crowdedConversion) ∨
    (variant.HasConversion ∧ variant.fields.toList.length = 1 ∧
      ∃ conversion, variant.conversion = .ok (some conversion) ∧
        ∀ item, variant.ConvertedBy item (conversion.code item)) := by
  rw [conversion]
  split
  case h_1 hNone =>
    refine .inl ⟨?_, rfl⟩
    rintro ⟨field, hField, hFrom⟩
    exact List.find?_eq_none.1 hNone field hField (List.contains_iff_mem.2 hFrom)
  case h_2 field hSome =>
    have hField := List.mem_of_find?_eq_some hSome
    have hFrom : "from" ∈ field.attributes := by simpa using List.find?_some hSome
    have hHas : variant.HasConversion := ⟨field, hField, hFrom⟩
    split
    case isTrue hCount => exact .inr (.inl ⟨hHas, hCount, rfl⟩)
    case isFalse hCount =>
      refine .inr (.inr ⟨hHas, not_not.1 hCount, _, rfl, fun item => ?_⟩)
      obtain ⟨only, hOnly⟩ := List.length_eq_one_iff.1 (not_not.1 hCount)
      rw [hOnly] at hField
      obtain rfl := List.mem_singleton.1 hField
      cases hKind : variant.fields with
      | unit =>
        rw [hKind] at hOnly
        cases hOnly
      | tuple fields =>
        rw [hKind] at hOnly
        obtain rfl : fields = _ := hOnly
        rw [Conversion.code_eq]
        exact .tuple hKind hFrom
      | named fields =>
        rw [hKind] at hOnly
        obtain rfl : fields = _ := hOnly
        rw [Conversion.code_eq]
        exact .named hKind hFrom

theorem ConvertedBy.rightUnique (item : Item) : Relator.RightUnique (ConvertedBy item) := by
  intro variant code code' h h'
  cases h with
  | tuple hFields =>
    cases h' with
    | tuple hFields' =>
      cases hFields.symm.trans hFields'
      rfl
    | named hFields' => cases hFields.symm.trans hFields'
  | named hFields =>
    cases h' with
    | tuple hFields' => cases hFields.symm.trans hFields'
    | named hFields' =>
      cases hFields.symm.trans hFields'
      rfl

theorem conversion_eq_ok {conversion? : Option Conversion}
    (h : variant.conversion = .ok conversion?) (item : Item) :
    (¬variant.HasConversion ∧ conversion? = none) ∨
      ∃ conversion, variant.HasConversion ∧ conversion? = some conversion ∧
        variant.ConvertedBy item (conversion.code item) := by
  rcases variant.conversion_cases with ⟨hNone, hOk⟩ | ⟨-, -, hCrowded⟩ | ⟨hHas, -, _, hOk, hCode⟩
  · rw [hOk] at h
    cases h
    exact .inl ⟨hNone, rfl⟩
  · rw [hCrowded] at h
    cases h
  · rw [hOk] at h
    cases h
    exact .inr ⟨_, hHas, rfl, hCode item⟩

end Variant

/-! ### Expansions -/

/-- What one variant contributes. -/
structure VariantExpansion where
  display : DisplayArm
  source? : Option SourceArm
  conversion? : Option Conversion
  deriving DecidableEq, Repr

namespace Variant

variable {variant : Variant} {error : DeriveError}

def expansion (variant : Variant) : Except DeriveError VariantExpansion := do
  let display ← variant.display
  let conversion? ← variant.conversion
  return ⟨display, variant.source?, conversion?⟩

theorem failsWith_expansion : Outcome.FailsWith variant.Offends variant.expansion := by
  refine failsWith_display.bind_of_ok fun arm hDisplay => .bind ?_ fun _ => .ok _
  obtain ⟨text, hSays, hNamed⟩ := says_of_display hDisplay
  rcases variant.conversion_cases with ⟨-, hOk⟩ | ⟨hHas, hCount, hCrowded⟩ | ⟨-, -, _, hOk, -⟩
  · rw [hOk]
    exact .ok _
  · rw [hCrowded]
    exact .error (.crowded hSays (hNamed hHas.fields_ne_unit) hHas hCount)
  · rw [hOk]
    exact .ok _

theorem Offends.expansion_eq (h : variant.Offends error) : variant.expansion = .error error := by
  have hDisplay (hError : variant.display = .error error) : variant.expansion = .error error := by
    rw [expansion, hError]
    rfl
  have hMessage := message_eq variant
  cases h with
  | missing h =>
    rw [h] at hMessage
    exact hDisplay (display_of_message_error hMessage)
  | faulty h hFaulty =>
    rw [h, Option.elim_some, hFaulty.read_eq] at hMessage
    exact hDisplay (display_of_message_error hMessage)
  | implicit h hFields hImplicit =>
    exact hDisplay ((display_eq_error_iff h).2 ⟨hFields, hImplicit, rfl⟩)
  | crowded h hNamed hHas hCount =>
    obtain ⟨arm, hArm⟩ := exists_display h hNamed
    rcases variant.conversion_cases with ⟨hNone, -⟩ | ⟨-, -, hCrowded⟩ | ⟨-, hOne, -⟩
    · exact absurd hHas hNone
    · rw [expansion, hArm, hCrowded]
      rfl
    · exact absurd hOne hCount

theorem expansion_eq_error_iff : variant.expansion = .error error ↔ variant.Offends error :=
  ⟨failsWith_expansion error, Offends.expansion_eq⟩

instance (variant : Variant) (error : DeriveError) : Decidable (variant.Offends error) :=
  decidable_of_iff (variant.expansion = .error error) expansion_eq_error_iff

theorem accepted_iff : variant.Accepted ↔ variant.expansion.isOk = true := by
  simp only [Accepted, ← expansion_eq_error_iff]
  cases variant.expansion <;> simp [Except.isOk, Except.toBool]

instance (variant : Variant) : Decidable variant.Accepted :=
  decidable_of_iff _ accepted_iff.symm

theorem expansion_eq_ok {parts : VariantExpansion} (h : variant.expansion = .ok parts) :
    variant.display = .ok parts.display ∧ variant.source? = parts.source? ∧
      variant.conversion = .ok parts.conversion? := by
  obtain ⟨display, hDisplay, h⟩ := Outcome.bind_eq_ok_iff.1 h
  obtain ⟨conversion?, hConversion, ⟨⟩⟩ := Outcome.bind_eq_ok_iff.1 h
  exact ⟨hDisplay, rfl, hConversion⟩

end Variant

end TapeMachine.ErrorDerive
