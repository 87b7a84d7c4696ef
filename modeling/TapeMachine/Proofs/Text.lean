import Mathlib.Data.List.TakeWhile
import TapeMachine.Text.Blank
import TapeMachine.Text.Utf8

/-! Texts without the blanks at their ends, in pieces between line feeds, and as bytes.  Blanks at
the end do not change a trimmed text (`trim_append`).  `piecesInduction` goes through a text from
one line feed to the next.  Bytes decode to a text exactly when they are the encodings of its
characters one after another (`decode_eq_ok_iff`), and the byte of a line feed is part of no other
character's encoding (`lineFeed_mem_encoded`). -/

namespace TapeMachine.Text

/-! ### Ends of texts -/

/-- What is left after the elements of a class starts outside of it. -/
theorem head?_dropWhile {α : Type} (inClass : α → Bool) (xs : List α) :
    ∀ x ∈ (xs.dropWhile inClass).head?, inClass x = false := by
  intro x hx
  have hStop := List.head?_dropWhile_not inClass xs
  rwa [Option.mem_def.1 hx] at hStop

section Ends

variable {inClass : Char → Bool}

/-- Characters of a class before the first one outside are taken and dropped, and no others. -/
theorem span_exact {body rest : List Char} (hInside : ∀ c ∈ body, inClass c = true)
    (hBoundary : ∀ c ∈ rest.head?, inClass c = false) :
    (body ++ rest).takeWhile inClass = body ∧ (body ++ rest).dropWhile inClass = rest := by
  rw [List.takeWhile_append_of_pos hInside, List.dropWhile_append_of_pos hInside]
  cases rest with
  | nil => simp
  | cons c rest => simp [hBoundary c rfl]

theorem dropEndWhile_append {ending : List Char} (h : ∀ c ∈ ending, inClass c = true)
    (cs : List Char) : dropEndWhile inClass (cs ++ ending) = dropEndWhile inClass cs := by
  have hDropped : ∀ c ∈ ending.reverse, inClass c = true :=
    fun c hc => h c (List.mem_reverse.1 hc)
  simp only [dropEndWhile, List.reverse_append, List.dropWhile_append_of_pos hDropped]

/-- What is left out at the end of a text is in the class. -/
theorem exists_dropEndWhile_append (inClass : Char → Bool) (cs : List Char) :
    ∃ ending, cs = dropEndWhile inClass cs ++ ending ∧ ∀ c ∈ ending, inClass c = true := by
  refine ⟨(cs.reverse.takeWhile inClass).reverse, ?_, fun c hc => ?_⟩
  · rw [dropEndWhile, ← List.reverse_append, List.takeWhile_append_dropWhile, List.reverse_reverse]
  · exact List.mem_takeWhile_imp (List.mem_reverse.1 hc)

/-- A text that does not end in the class is kept before whatever follows it. -/
theorem dropEndWhile_append_of_kept {kept : List Char}
    (h : ∀ c ∈ kept.getLast?, inClass c = false) (cs : List Char) :
    dropEndWhile inClass (kept ++ cs) = kept ++ dropEndWhile inClass cs := by
  have hKept : kept.reverse.dropWhile inClass = kept.reverse := by
    rw [← List.head?_reverse] at h
    exact (span_exact (List.forall_mem_nil _) h).2
  simp only [dropEndWhile, List.reverse_append, List.dropWhile_append, hKept]
  split
  case isTrue hEmpty => simp [List.isEmpty_iff.1 hEmpty]
  case isFalse => simp

theorem getLast?_dropEndWhile (inClass : Char → Bool) (cs : List Char) :
    ∀ c ∈ (dropEndWhile inClass cs).getLast?, inClass c = false := by
  rw [dropEndWhile, List.getLast?_reverse]
  exact head?_dropWhile inClass cs.reverse

end Ends

/-- Blanks at the end of a text do not change it once it is trimmed. -/
theorem trim_append {blanks : List Char} (h : ∀ c ∈ blanks, isBlank c = true) (cs : List Char) :
    trim (String.ofList (cs ++ blanks)) = trim (String.ofList cs) := by
  simp only [trim, String.toList_ofList, List.dropWhile_append]
  split
  case isTrue hEmpty =>
    rw [List.isEmpty_iff.1 hEmpty, List.dropWhile_eq_nil_iff.2 h]
  case isFalse => rw [dropEndWhile_append h]

/-- A text may lose blanks at its end before it is trimmed. -/
theorem trim_dropEndWhile {inClass : Char → Bool} (h : ∀ c, inClass c = true → isBlank c = true)
    (cs : List Char) :
    trim (String.ofList (dropEndWhile inClass cs)) = trim (String.ofList cs) := by
  obtain ⟨ending, hText, hEnding⟩ := exists_dropEndWhile_append inClass cs
  conv => rhs; rw [hText]
  rw [trim_append fun c hc => h c (hEnding c hc)]

theorem trim_eq_self {s : String} (h : ∀ c ∈ s.toList, isBlank c = false) : trim s = s := by
  have hFirst : s.toList.dropWhile isBlank = s.toList :=
    (span_exact (List.forall_mem_nil _) fun c hc => h c (List.mem_of_mem_head? hc)).2
  have hLast := dropEndWhile_append_of_kept (fun c hc => h c (List.mem_of_getLast? hc)) []
  rw [List.append_nil] at hLast
  rw [trim, hFirst, hLast]
  exact (congrArg String.ofList (List.append_nil _)).trans String.ofList_toList

/-! ### Pieces between line feeds -/

/-- What stands before, between and after the line feeds of a text. -/
def pieces (text : String) : List String :=
  (text.toList.splitOn '\n').map String.ofList

theorem pieces_of_unbroken {text : String} (h : '\n' ∉ text.toList) : pieces text = [text] := by
  rw [pieces, List.splitOn_eq_singleton h, List.map_singleton, String.ofList_toList]

theorem pieces_newline {piece : String} (h : '\n' ∉ piece.toList) (rest : String) :
    pieces (piece ++ "\n" ++ rest) = piece :: pieces rest := by
  simp only [pieces, String.toList_append]
  rw [List.append_assoc, show "\n".toList = ['\n'] from rfl, List.singleton_append,
    List.splitOn_append_cons_self_of_not_mem h, List.map_cons, String.ofList_toList]

/-- A text is one piece, or has a first piece with a line feed after it. -/
theorem unbroken_or_newline (text : String) :
    '\n' ∉ text.toList ∨ ∃ piece rest, '\n' ∉ piece.toList ∧ text = piece ++ "\n" ++ rest := by
  by_cases h : '\n' ∈ text.toList
  · obtain ⟨before, after, hText, hBefore⟩ := List.eq_append_cons_of_mem h
    refine .inr ⟨String.ofList before, String.ofList after, by simpa using hBefore, ?_⟩
    apply String.toList_inj.1
    simp [hText]
  · exact .inl h

theorem pieces_ne_nil (text : String) : pieces text ≠ [] := by
  rw [pieces, ne_eq, List.map_eq_nil_iff]
  exact List.splitOn_ne_nil '\n' text.toList

/-- What holds of every piece, and of a piece before a line feed if it holds of what follows, holds
of every text. -/
theorem piecesInduction {motive : String → Prop}
    (unbroken : ∀ text, '\n' ∉ text.toList → motive text)
    (newline : ∀ piece rest, '\n' ∉ piece.toList → motive rest →
      motive (piece ++ "\n" ++ rest))
    (text : String) : motive text := by
  induction hLength : text.length using Nat.strongRecOn generalizing text with
  | _ n ih =>
    rcases unbroken_or_newline text with hUnbroken | ⟨piece, rest, hPiece, rfl⟩
    · exact unbroken text hUnbroken
    · have hShort : rest.length < n := by
        have hFeed : "\n".length = 1 := rfl
        rw [String.length_append, String.length_append, hFeed] at hLength
        omega
      exact newline piece rest hPiece (ih rest.length hShort rest rfl)

/-! ### Bytes -/

/-- The bytes of characters, one after another. -/
def encoded (cs : List Char) : List UInt8 :=
  cs.flatMap String.utf8EncodeChar

@[simp] theorem encoded_append (a b : List Char) : encoded (a ++ b) = encoded a ++ encoded b :=
  List.flatMap_append

theorem toByteArray_encoded (text : String) :
    (encoded text.toList).toByteArray = text.toByteArray := by
  conv => rhs; rw [← String.ofList_toList (s := text), String.toByteArray_ofList]
  rfl

theorem decode_eq_ok_iff {bytes : List UInt8} {text : String} :
    decode bytes = .ok text ↔ bytes = encoded text.toList := by
  rw [← List.toByteArray_inj, toByteArray_encoded]
  unfold decode String.fromUTF8?
  by_cases hValid : bytes.toByteArray.IsValidUTF8
  · simp only [hValid, dite_true, Except.ok.injEq]
    exact String.toByteArray_inj.symm
  · simp only [hValid, dite_false, reduceCtorEq, false_iff]
    intro hBytes
    exact hValid (hBytes ▸ text.isValidUTF8)

theorem encode_eq_encoded (text : String) : encode text = encoded text.toList := by
  rw [encode, ← toByteArray_encoded, List.toList_data_toByteArray]

/-- What is written is read back. -/
theorem decode_encode (text : String) : decode (encode text) = .ok text :=
  decode_eq_ok_iff.2 (encode_eq_encoded text)

theorem ofNat_eq_lineFeed {n : Nat} (hn : n < 256) (h : 10 = UInt8.ofNat n) : n = 10 := by
  have hNat := congrArg UInt8.toNat h
  rw [UInt8.toNat_ofNat_of_lt' hn] at hNat
  exact hNat.symm

/-- The bytes of a character beyond ASCII are all greater than a line feed. -/
theorem eq_newline_of_mem {c : Char} (h : 10 ∈ String.utf8EncodeChar c) : c = '\n' := by
  apply Char.toNat_inj.1
  show c.val.toNat = 10
  unfold String.utf8EncodeChar at h
  simp only at h
  split at h
  case isTrue hAscii =>
    exact ofNat_eq_lineFeed (by omega) (List.mem_singleton.1 h)
  case isFalse =>
    split at h
    case isTrue =>
      simp only [List.mem_cons, List.not_mem_nil, or_false] at h
      rcases h with h | h <;> have := ofNat_eq_lineFeed (by omega) h <;> omega
    case isFalse =>
      split at h <;> simp only [List.mem_cons, List.not_mem_nil, or_false] at h
      · rcases h with h | h | h <;> have := ofNat_eq_lineFeed (by omega) h <;> omega
      · rcases h with h | h | h | h <;> have := ofNat_eq_lineFeed (by omega) h <;> omega

theorem lineFeed_mem_encoded {cs : List Char} (h : 10 ∈ encoded cs) : '\n' ∈ cs := by
  obtain ⟨c, hc, hByte⟩ := List.mem_flatMap.1 h
  exact eq_newline_of_mem hByte ▸ hc

end TapeMachine.Text
