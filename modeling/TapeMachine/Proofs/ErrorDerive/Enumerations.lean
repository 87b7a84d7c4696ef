import TapeMachine.Proofs.ErrorDerive.Variants

/-! The code of an enumeration.  Its variants are expanded one after another
(`expandVariants_eq`), so the error is that of the first variant with a fault
(`expandVariants_eq_error_iff`), and the parts of the code are those of the variants in their order
(`exists_expandVariants`). -/

namespace TapeMachine.ErrorDerive

open Emitted

theorem expandVariants_eq (variants : List Variant) :
    expandVariants variants = (variants.mapM Variant.expansion).map fun expansions =>
      ⟨expansions.map (·.display), expansions.filterMap (·.source?),
        expansions.filterMap (·.conversion?)⟩ := by
  induction variants with
  | nil => rfl
  | cons variant rest ih =>
    rw [expandVariants, List.mapM_cons, ih, Variant.expansion]
    cases variant.display with
    | error => rfl
    | ok display =>
      cases variant.conversion with
      | error => rfl
      | ok conversion? =>
        cases rest.mapM Variant.expansion with
        | error => rfl
        | ok => cases variant.source? <;> cases conversion? <;> rfl

theorem expandVariants_eq_error_iff {variants : List Variant} {error : DeriveError} :
    expandVariants variants = .error error ↔
      ∃ before variant after, variants = before ++ variant :: after ∧
        (∀ other ∈ before, other.Accepted) ∧ variant.Offends error := by
  rw [expandVariants_eq, Outcome.map_eq_error_iff, Outcome.mapM_eq_error_iff]
  simp only [ne_eq, Variant.expansion_eq_error_iff, Variant.Accepted]

/-- Without a fault, each variant contributes its parts, and no others do. -/
theorem exists_expandVariants {variants : List Variant}
    (h : ∀ variant ∈ variants, variant.Accepted) (item : Item) :
    ∃ expansion, expandVariants variants = .ok expansion ∧
      List.Forall₂ Variant.ShownBy variants (expansion.display.map DisplayArm.code) ∧
      List.Forall₂ Variant.SourceGivenBy (variants.filter (·.HasSource))
        (expansion.sources.map SourceArm.code) ∧
      List.Forall₂ (Variant.ConvertedBy item) (variants.filter (·.HasConversion))
        (expansion.conversions.map (Conversion.code item)) := by
  cases hExpansions : variants.mapM Variant.expansion with
  | error error =>
    obtain ⟨before, variant, after, rfl, -, hError⟩ := Outcome.mapM_eq_error_iff.1 hExpansions
    exact absurd (Variant.expansion_eq_error_iff.1 hError) (h variant (by simp) error)
  | ok expansions =>
    have hParts := (Outcome.mapM_eq_ok_iff.1 hExpansions).imp fun _ _ => Variant.expansion_eq_ok
    refine ⟨_, by rw [expandVariants_eq, hExpansions]; rfl, ?_, ?_, ?_⟩
    · rw [List.map_map, List.forall₂_map_right_iff]
      exact hParts.imp fun _ _ h => Variant.shownBy_of_display h.1
    · rw [List.forall₂_map_right_iff]
      refine Outcome.forall₂_filter_filterMap (fun variant parts h => ?_) hParts
      rw [decide_eq_true_eq, decide_eq_false_iff_not, ← h.2.1]
      exact variant.source?_cases
    · rw [List.forall₂_map_right_iff]
      refine Outcome.forall₂_filter_filterMap (fun variant parts h => ?_) hParts
      rw [decide_eq_true_eq, decide_eq_false_iff_not]
      exact Variant.conversion_eq_ok h.2.2 item

theorem generate_eq {item : Item} {variants : List Variant}
    (h : item.body = .enumeration variants) :
    item.generate = (expandVariants variants).map (·.code item) := by
  have hExpand : item.expand = (expandVariants variants).map .enumeration := by
    rw [Item.expand, h]
  rw [Item.generate, hExpand]
  cases expandVariants variants <;> rfl

/-- Without a fault, the code has an arm for each variant, and what is needed for the marked
fields. -/
theorem exists_generate {item : Item} {variants : List Variant}
    (h : item.body = .enumeration variants)
    (hAccepted : ∀ variant ∈ variants, variant.Accepted) :
    ∃ arms sources conversions : List Code,
      List.Forall₂ Variant.ShownBy variants arms ∧
      List.Forall₂ Variant.SourceGivenBy (variants.filter (·.HasSource)) sources ∧
      List.Forall₂ (Variant.ConvertedBy item) (variants.filter (·.HasConversion)) conversions ∧
      item.generate = .ok (displayBlock item (matchSelf arms.flatten)
        ++ errorBlock item (if ∃ variant ∈ variants, variant.HasSource then
          sourceFunction (matchSource sources.flatten) else [])
        ++ conversions.flatten) := by
  obtain ⟨expansion, hExpansion, hShown, hSources, hConversions⟩ :=
    exists_expandVariants hAccepted item
  refine ⟨_, _, _, hShown, hSources, hConversions, ?_⟩
  have hEmpty : expansion.sources = [] ↔ ¬∃ variant ∈ variants, variant.HasSource := by
    have hLength := hSources.length_eq
    rw [List.length_map] at hLength
    rw [← List.length_eq_zero_iff, ← hLength, List.length_eq_zero_iff, List.filter_eq_nil_iff]
    simp
  rw [generate_eq h, hExpansion, Except.map, EnumExpansion.code_eq]
  simp only [hEmpty, ite_not]

/-- An enumeration with a fault in some variant gets no code, and the error is that of the first
such variant.  Any other is shown with one arm for each variant, in their order; the sources are
those of the variants with a marked field, and if there is none, no function gives them; and there
is a conversion into each variant with a field to convert from. -/
theorem enumeration_generates (item : Item) (variants : List Variant)
    (h : item.body = .enumeration variants) :
    (∀ error, item.generate = .error error ↔
      ∃ before variant after, variants = before ++ variant :: after ∧
        (∀ other ∈ before, other.Accepted) ∧ variant.Offends error) ∧
    ((∀ variant ∈ variants, variant.Accepted) → ∃ arms sources conversions : List Code,
      List.Forall₂ Variant.ShownBy variants arms ∧
      List.Forall₂ Variant.SourceGivenBy (variants.filter (·.HasSource)) sources ∧
      List.Forall₂ (Variant.ConvertedBy item) (variants.filter (·.HasConversion)) conversions ∧
      item.generate = .ok (displayBlock item (matchSelf arms.flatten)
        ++ errorBlock item (if ∃ variant ∈ variants, variant.HasSource then
          sourceFunction (matchSource sources.flatten) else [])
        ++ conversions.flatten)) := by
  refine ⟨fun error => ?_, exists_generate h⟩
  rw [generate_eq h, Outcome.map_eq_error_iff, expandVariants_eq_error_iff]

/-- A variant of each kind.  All but the first have a source, and in one of these it is not in the
first field. -/
def readFailures : List Variant := [
  ⟨"Empty", [⟨"error", .list [.string "nothing in \x7b\x7d"]⟩], .unit⟩,
  ⟨"Host", [⟨"error", .list [.string "host: \x7b0\x7d"]⟩],
    .tuple [⟨"", [.name "HostError"], ["from"]⟩]⟩,
  ⟨"Cell", [⟨"error", .list [.string "cell \x7b0:?\x7d"]⟩],
    .tuple [⟨"", [.name "T"], []⟩, ⟨"", [.name "CellError"], ["source"]⟩]⟩,
  ⟨"Line", [⟨"error", .list [.string "line \x7bnumber\x7d"]⟩],
    .named [⟨"number", [.name "u64"], []⟩, ⟨"cause", [.name "LineError"], ["source"]⟩]⟩]

/-- An enumeration with generic parameters. -/
def readError : Item where
  name := "ReadError"
  attributes := []
  parameters := [⟨"'a", []⟩, ⟨"T", [.name "Debug"]⟩]
  conditions := []
  body := .enumeration readFailures

theorem enumeration_generates_readError :
    readError.generate = .ok (List.flatMap Code.ofText [
      "impl<'a, T: Debug> ::std::fmt::Display for ReadError<'a, T> \x7b",
      "  fn fmt(&self, f: &mut ::std::fmt::Formatter<'_>) -> ::std::fmt::Result \x7b",
      "    match self \x7b",
      "      Self::Empty => write!(f, \"nothing in \x7b\x7d\"),",
      "      Self::Host(f0) => write!(f, \"host: \x7bf0\x7d\", f0 = f0),",
      "      Self::Cell(f0, _) => write!(f, \"cell \x7bf0:?\x7d\", f0 = f0),",
      "      Self::Line \x7b number, .. \x7d =>",
      "        write!(f, \"line \x7bnumber\x7d\", number = number),",
      "    \x7d",
      "  \x7d",
      "\x7d",
      "impl<'a, T: Debug> ::std::error::Error for ReadError<'a, T> \x7b",
      "  fn source(&self) -> ::std::option::Option<&(dyn ::std::error::Error + 'static)> \x7b",
      "    #[allow(unreachable_patterns)]",
      "    match self \x7b",
      "      Self::Host(__source, ..) =>",
      "        ::std::option::Option::Some(__source as &(dyn ::std::error::Error + 'static)),",
      "      Self::Cell(_, __source, ..) =>",
      "        ::std::option::Option::Some(__source as &(dyn ::std::error::Error + 'static)),",
      "      Self::Line \x7b cause: __source, .. \x7d =>",
      "        ::std::option::Option::Some(__source as &(dyn ::std::error::Error + 'static)),",
      "      _ => ::std::option::Option::None,",
      "    \x7d",
      "  \x7d",
      "\x7d",
      "impl<'a, T: Debug> ::std::convert::From<HostError> for ReadError<'a, T> \x7b",
      "  fn from(value: HostError) -> Self \x7b",
      "    Self::Host(value)",
      "  \x7d",
      "\x7d"]) ∧
    Item.generate { readError with body := .enumeration [
        ⟨"Empty", [⟨"error", .list [.string "nothing"]⟩], .unit⟩,
        ⟨"Pair", [⟨"error", .list [.string "pair \x7b\x7d"]⟩],
          .tuple [⟨"", [.name "u8"], ["from"]⟩, ⟨"", [.name "u8"], []⟩]⟩,
        ⟨"Last", [], .unit⟩] } = .error .implicitArgument := by
  constructor
  · obtain ⟨arms, sources, conversions, hArms, hSources, hConversions, hCode⟩ :=
      (enumeration_generates readError _ rfl).2 (by decide +kernel)
    -- The variants determine their arms, and the rest of the code as well.
    have hShown : List.Forall₂ Variant.ShownBy readFailures _ :=
      .cons (@Variant.ShownBy.unit _ "nothing in \x7b\x7d" (by rfl) (by rfl)) <|
      .cons (@Variant.ShownBy.tuple _ "host: \x7b0\x7d" [_] ["f0"] (by rfl) (by rfl)
        (by decide +kernel)) <|
      .cons (@Variant.ShownBy.tuple _ "cell \x7b0:?\x7d" [_, _] ["f0"] (by rfl) (by rfl)
        (by decide +kernel)) <|
      .cons (@Variant.ShownBy.named _ "line \x7bnumber\x7d" [_, _] ["number"] (by rfl) (by rfl)
        (by decide +kernel)) .nil
    obtain rfl := Variant.ShownBy.rightUnique.forall₂ hArms hShown
    have hWith : readFailures.filter (·.HasSource) = readFailures.tail := by decide +kernel
    have hMember {fields : Fields} {member : Member} :
        fields.sourceMember? = some member → fields.SourceAt member :=
      Fields.sourceMember?_eq_some_iff.1
    have hGiven : List.Forall₂ Variant.SourceGivenBy readFailures.tail _ :=
      .cons (@Variant.SourceGivenBy.tuple _ 0 (hMember (by decide))) <|
      .cons (@Variant.SourceGivenBy.tuple _ 1 (hMember (by decide))) <|
      .cons (@Variant.SourceGivenBy.named _ "cause" (hMember (by decide))) .nil
    rw [hWith] at hSources
    obtain rfl := Variant.SourceGivenBy.rightUnique.forall₂ hSources hGiven
    have hFrom : readFailures.filter (·.HasConversion) = readFailures.tail.take 1 := by
      decide +kernel
    rw [hFrom] at hConversions
    obtain rfl := (Variant.ConvertedBy.rightUnique readError).forall₂ hConversions
      (.cons (.tuple (by rfl) (by decide)) .nil)
    rw [hCode, if_pos (by decide +kernel)]
    refine congrArg Except.ok ?_
    simp only [List.flatMap_cons, List.flatMap_nil]
    repeat rw [Code.ofText_ofList]
    decide +kernel
  · exact ((enumeration_generates _ _ rfl).1 _).2 ⟨[_], _, [_], rfl, by decide +kernel,
      by decide +kernel⟩

end TapeMachine.ErrorDerive
