import TapeMachine.Event
import TapeMachine.Proofs.Assembly.RoundTrip

/-! The details of trace entries, read back.  Without its quotes and brackets a detail is a line of
words, each of them an address after `#`, a number, or a word in the narrow sense (`items`).  Three
readers take from these items what a detail says: the cell that was written, the cells that were
read, and where a branch went.  For the detail of every event they give what the event holds. -/

namespace TapeMachine

open Source

namespace Trace

/-! ### Readers -/

/-- A bracket or a quote. -/
def isMark (c : Char) : Bool :=
  ['(', ')', '[', ']', '\x27'].contains c

/-- A text without its brackets and quotes. -/
def unmarked (text : String) : String :=
  String.ofList (text.toList.filter fun c => !isMark c)

/-- A word of a detail. -/
inductive Item where
  | word (text : String)
  | number (value : Int64)
  /-- A number after `#`. -/
  | address (cell : Int64)
  deriving DecidableEq, Repr

/-- The address that a word writes after `#`. -/
def address? (word : String) : Option Int64 :=
  match word.toList with
  | '#' :: digits => Numeral.int64? (String.ofList digits)
  | _ => none

/-- An address or a number that fits in a cell, or else the word itself. -/
def Item.ofWord (word : String) : Item :=
  match address? word, Numeral.int64? word with
  | some cell, _ => .address cell
  | none, some value => .number value
  | none, none => .word word

def items (detail : String) : List Item :=
  (tokenize (unmarked detail)).map fun token => Item.ofWord token.text

/-- The address after `into`, with the value that follows it or else the last one before it. -/
def written? : List Item → Option (Int64 × Int64)
  | [] => none
  | .word "into" :: .address cell :: .number value :: _ => some (cell, value)
  | .number value :: .word "into" :: [.address cell] => some (cell, value)
  | _ :: rest => written? rest

/-- The addresses with the values in them, up to `into`. -/
def sources : List Item → List Reading
  | [] => []
  | .word "into" :: _ => []
  | .address cell :: .number value :: rest => ⟨cell, value⟩ :: sources rest
  | _ :: rest => sources rest

/-- Where a branch goes. -/
inductive Direction where
  | jump (target : Nat)
  | onward
  deriving DecidableEq, Repr

def Direction.position (pc : Nat) : Direction → Nat
  | jump target => target
  | onward => pc + 1

/-- The outcome of a branch. -/
def direction? : List Item → Option Direction
  | .word "Jump" :: .word "to" :: .number target :: _ => some (.jump target.toInt.toNat)
  | .word "No" :: .word "jump" :: _ => some .onward
  | _ => none

/-! ### Printed numbers -/

theorem Item.ofWord_address (cell : Int64) :
    ofWord ("#" ++ Numeral.ofInt64 cell) = .address cell := by
  have hAddress : address? ("#" ++ Numeral.ofInt64 cell) = some cell := by
    simp [address?, Numeral.int64?_ofInt64]
  simp only [ofWord, hAddress]

theorem Item.ofWord_number (value : Int64) : ofWord (Numeral.ofInt64 value) = .number value := by
  have hAddress : address? (Numeral.ofInt64 value) = none := by
    unfold address?
    split
    case h_1 digits hText =>
      have hFirst := Numeral.mem_ofInt64 (hText ▸ List.mem_cons_self)
      simp [Numeral.isDigit] at hFirst
    case h_2 => rfl
  simp only [ofWord, hAddress, Numeral.int64?_ofInt64]

theorem Item.ofWord_position (target : Position) :
    ofWord (Text.decimal target) = .number target.payload := by
  have hText := Numeral.ofInt64_of_not_neg target.payload_not_neg
  rw [target.toInt_payload, Int.toNat_natCast] at hText
  rw [← hText, ofWord_number]

theorem isMark_of_isDigit {c : Char} (h : Numeral.isDigit c = true) : isMark c = false := by
  by_contra hMark
  simp only [isMark, Bool.not_eq_false, List.contains_iff_mem, List.mem_cons, List.not_mem_nil,
    or_false] at hMark
  obtain rfl | rfl | rfl | rfl | rfl := hMark <;> exact absurd h (by decide)

@[simp] theorem filter_ofInt64 (v : Int64) :
    (Numeral.ofInt64 v).toList.filter (fun c => !isMark c) =
      (Numeral.ofInt64 v).toList := by
  refine List.filter_eq_self.2 fun c hc => ?_
  obtain rfl | hDigit := Numeral.mem_ofInt64 hc
  · decide
  · rw [isMark_of_isDigit hDigit, Bool.not_false]

@[simp] theorem filter_decimal (n : Nat) :
    (Text.decimal n).toList.filter (fun c => !isMark c) = (Text.decimal n).toList := by
  refine List.filter_eq_self.2 fun c hc => ?_
  rw [Text.decimal_toList] at hc
  rw [isMark_of_isDigit (Numeral.isDigit_of_mem_toDigits hc), Bool.not_false]

end Trace

/-! ### Details as words -/

def Reading.words (r : Reading) : List String :=
  ["#" ++ Numeral.ofInt64 r.address, Numeral.ofInt64 r.value]

namespace Event

/-- The words for an arithmetic event up to its destination; a subtraction shows the operands in the
other order. -/
def combinationWords (operation : Arithmetic) (a b : Reading) : List String :=
  match operation with
  | .add => "Add" :: a.words ++ "and" :: b.words
  | .sub => "Subtract" :: b.words ++ "from" :: a.words
  | .mul => "Multiply" :: a.words ++ "and" :: b.words
  | .div => "Divide" :: a.words ++ "by" :: b.words
  | .mod => "Modulo" :: a.words ++ "by" :: b.words

/-- The words of a detail, without brackets and quotes. -/
def words : Event → List String
  | set value dst =>
    ["Set", "value", Numeral.ofInt64 value, "into", "#" ++ Numeral.ofInt64 dst]
  | move src dst => "Move" :: src.words ++ ["into", "#" ++ Numeral.ofInt64 dst]
  | time now dst => ["Time", Numeral.ofInt64 now, "into", "#" ++ Numeral.ofInt64 dst]
  | input value dst =>
    ["Input", "value", Numeral.ofInt64 value, "into", "#" ++ Numeral.ofInt64 dst]
  | output src => "Output" :: "from" :: src.words
  | arithmetic operation a b dst result =>
    combinationWords operation a b ++ "into" :: (Reading.mk dst result).words
  | jump target => ["Jump", "to", Text.decimal target]
  | branch condition a b target true =>
    "Jump" :: "to" :: Text.decimal target :: a.words ++ condition.symbol :: b.words
  | branch condition a b _ false =>
    "No" :: "jump" :: a.words ++ condition.symbol :: b.words ++ ["is", "false"]
  | call target => ["Call", Text.decimal target]
  | ret resume => ["Return", "to", Text.decimal resume]
  | idleReturn => ["Return", "noop"]
  | terminate => ["Terminate"]

open Trace

@[simp] theorem filter_reading (r : Reading) :
    r.text.toList.filter (fun c => !isMark c) =
      '#' :: (Numeral.ofInt64 r.address).toList ++ ' ' :: (Numeral.ofInt64 r.value).toList := by
  show ("#" ++ Numeral.ofInt64 r.address ++ " ('" ++ Numeral.ofInt64 r.value ++ "')").toList.filter
    _ = _
  simp +decide

@[simp] theorem filter_symbol (condition : Comparison) :
    condition.symbol.toList.filter (fun c => !isMark c) = condition.symbol.toList := by
  cases condition <;> decide

/-- Without its brackets and quotes a detail is its words with blanks between them. -/
theorem unmarked_detail (event : Event) : unmarked event.detail = " ".intercalate event.words := by
  apply String.toList_inj.1
  cases event with
  | set value dst =>
    show (unmarked ("Set value '" ++ Numeral.ofInt64 value ++ "' into #" ++
      Numeral.ofInt64 dst)).toList = _
    simp +decide [unmarked, words]
  | move src dst =>
    show (unmarked ("Move " ++ src.text ++ " into #" ++ Numeral.ofInt64 dst)).toList = _
    simp +decide [unmarked, words, Reading.words]
  | time now dst =>
    show (unmarked ("Time " ++ Numeral.ofInt64 now ++ " into #" ++ Numeral.ofInt64 dst)).toList = _
    simp +decide [unmarked, words]
  | input value dst =>
    show (unmarked ("Input value '" ++ Numeral.ofInt64 value ++ "' into #" ++
      Numeral.ofInt64 dst)).toList = _
    simp +decide [unmarked, words]
  | output src =>
    show (unmarked ("Output from " ++ src.text)).toList = _
    simp +decide [unmarked, words, Reading.words]
  | arithmetic operation a b dst result =>
    cases operation with
    | add =>
      show (unmarked ("Add " ++ a.text ++ " and " ++ b.text ++ " into " ++
        (Reading.mk dst result).text)).toList = _
      simp +decide [unmarked, words, combinationWords, Reading.words]
    | sub =>
      show (unmarked ("Subtract " ++ b.text ++ " from " ++ a.text ++ " into " ++
        (Reading.mk dst result).text)).toList = _
      simp +decide [unmarked, words, combinationWords, Reading.words]
    | mul =>
      show (unmarked ("Multiply " ++ a.text ++ " and " ++ b.text ++ " into " ++
        (Reading.mk dst result).text)).toList = _
      simp +decide [unmarked, words, combinationWords, Reading.words]
    | div =>
      show (unmarked ("Divide " ++ a.text ++ " by " ++ b.text ++ " into " ++
        (Reading.mk dst result).text)).toList = _
      simp +decide [unmarked, words, combinationWords, Reading.words]
    | mod =>
      show (unmarked ("Modulo " ++ a.text ++ " by " ++ b.text ++ " into " ++
        (Reading.mk dst result).text)).toList = _
      simp +decide [unmarked, words, combinationWords, Reading.words]
  | jump target =>
    show (unmarked ("Jump to " ++ Text.decimal target)).toList = _
    simp +decide [unmarked, words]
  | branch condition a b target taken =>
    cases taken with
    | true =>
      show (unmarked ("Jump to " ++ Text.decimal target ++ " [" ++ a.text ++ " " ++
        condition.symbol ++ " " ++ b.text ++ "]")).toList = _
      simp +decide [unmarked, words, Reading.words]
    | false =>
      show (unmarked ("No jump [" ++ a.text ++ " " ++ condition.symbol ++ " " ++ b.text ++
        " is false]")).toList = _
      simp +decide [unmarked, words, Reading.words]
  | call target =>
    show (unmarked ("Call " ++ Text.decimal target)).toList = _
    simp +decide [unmarked, words]
  | ret resume =>
    show (unmarked ("Return to " ++ Text.decimal resume)).toList = _
    simp +decide [unmarked, words]
  | idleReturn => decide
  | terminate => decide

theorem isWord_address (cell : Int64) : IsWord ("#" ++ Numeral.ofInt64 cell) :=
  IsWord.append (by decide) (Numeral.isWord_ofInt64 cell)

theorem isWord_symbol (condition : Comparison) : IsWord condition.symbol := by
  cases condition <;> decide

theorem isWord_words (event : Event) : ∀ word ∈ event.words, IsWord word := by
  cases event with
  | arithmetic operation a b dst result =>
    cases operation <;>
      simp +decide [words, combinationWords, Reading.words, isWord_address, Numeral.isWord_ofInt64]
  | branch condition a b target taken =>
    cases taken <;>
      simp +decide [words, Reading.words, isWord_address, isWord_symbol, Numeral.isWord_ofInt64,
        Text.isWord_decimal]
  | _ =>
    simp +decide [words, Reading.words, isWord_address, Numeral.isWord_ofInt64, Text.isWord_decimal]

theorem items_detail (event : Event) : items event.detail = event.words.map Item.ofWord := by
  have hTexts := texts_tokenize event.isWord_words
  rw [← unmarked_detail] at hTexts
  rw [← hTexts, List.map_map]
  rfl

/-! ### What a detail says -/

/-- The cells that an event has read, in the order in which its detail shows them. -/
def sources : Event → List Reading
  | move src _ | output src => [src]
  | arithmetic .sub a b _ _ => [b, a]
  | arithmetic _ a b _ _ | branch _ a b _ _ => [a, b]
  | set _ _ | time _ _ | input _ _ | jump _ | call _ | ret _ | idleReturn | terminate => []

theorem map_ofWord_reading (r : Reading) :
    r.words.map Item.ofWord = [.address r.address, .number r.value] := by
  simp only [Reading.words, List.map, Item.ofWord_address, Item.ofWord_number]

/-- The detail of an event that writes shows the cell and the value. -/
theorem written?_items {event : Event} {write : Int64 × Int64} (h : event.write? = some write) :
    written? (items event.detail) = some write := by
  rw [items_detail]
  cases event with
  | set value dst | time value dst | input value dst =>
    cases h
    simp only [words, List.map, Item.ofWord_address, Item.ofWord_number]
    rfl
  | move src dst =>
    cases h
    simp only [words, List.map_append, List.map_cons, map_ofWord_reading, Item.ofWord_address]
    rfl
  | arithmetic operation a b dst result =>
    cases h
    cases operation <;>
    · simp only [words, combinationWords, List.map_append, List.map_cons, map_ofWord_reading]
      rfl
  | _ => cases h

theorem sources_singleton (item : Item) : Trace.sources [item] = [] := by
  unfold Trace.sources
  split
  case h_1 | h_2 => rfl
  case h_3 hItem => cases hItem
  case h_4 hItem =>
    cases hItem
    rfl

/-- The detail of an event shows the cells that were read, with their values. -/
theorem sources_items (event : Event) : Trace.sources (items event.detail) = event.sources := by
  rw [items_detail]
  cases event with
  | set value dst | time value dst | input value dst =>
    simp only [words, List.map, Item.ofWord_address, Item.ofWord_number]
    rfl
  | move src | output src =>
    simp only [words, List.map_append, List.map_cons, map_ofWord_reading, Item.ofWord_address]
    rfl
  | arithmetic operation a b dst result =>
    cases operation <;>
    · simp only [words, combinationWords, List.map_append, List.map_cons, map_ofWord_reading]
      rfl
  | branch condition a b target taken =>
    cases taken <;> cases condition <;>
    · simp only [words, List.map_append, List.map_cons, map_ofWord_reading, Item.ofWord_position]
      rfl
  | jump target | call target => exact sources_singleton (.ofWord (Text.decimal target))
  | ret resume => exact sources_singleton (.ofWord (Text.decimal resume))
  | idleReturn | terminate => rfl

/-- The detail of a branch shows whether it went to its target. -/
theorem direction?_items (condition : Comparison) (a b : Reading) (target : Position)
    (taken : Bool) :
    direction? (items (branch condition a b target taken).detail) =
      some (if taken then .jump target.val else .onward) := by
  rw [items_detail]
  cases taken with
  | true =>
    simp only [words, List.map, List.cons_append, Item.ofWord_position]
    show some (Direction.jump target.payload.toInt.toNat) = _
    rw [target.toInt_payload]
    rfl
  | false => rfl

end Event

end TapeMachine
