import TapeMachine.Proofs.Numeral

/-! Numbers in groups of three digits.  Where the commas stand is decided from the end of the
digits, while they are written from the front; `splitOn_groupDigits` carries the length of the first
group, which is what the next digit in front needs to know. -/

namespace TapeMachine.Text

theorem filter_groupDigits {ds : List Char} (h : ',' ∉ ds) :
    (groupDigits ds).filter (· ≠ ',') = ds := by
  fun_induction groupDigits ds with
  | case1 => rfl
  | case2 d =>
    have hFirst : d ≠ ',' := fun hd => h (hd ▸ List.mem_cons_self)
    simp [hFirst]
  | case3 d ds hMore hThird ih | case4 d ds hMore hThird ih =>
    obtain ⟨hFirst, hRest⟩ := not_or.1 (mt List.mem_cons.2 h)
    simpa [Ne.symm hFirst] using ih hRest

/-- Between the commas stand the digits, in a first group with what is left over when the others
take three each. -/
theorem splitOn_groupDigits {ds : List Char} (hSome : ds ≠ []) (hComma : ',' ∉ ds) :
    ∃ first rest, (groupDigits ds).splitOn ',' = first :: rest ∧ first ++ rest.flatten = ds ∧
      first.length = (ds.length - 1) % 3 + 1 ∧ ∀ group ∈ rest, group.length = 3 := by
  fun_induction groupDigits ds with
  | case1 => exact absurd rfl hSome
  | case2 d => exact ⟨[d], [], List.splitOn_eq_singleton hComma, rfl, rfl, nofun⟩
  | case3 d ds hMore hThird ih =>
    obtain ⟨hFirst, hRest⟩ := not_or.1 (mt List.mem_cons.2 hComma)
    obtain ⟨first, rest, hSplit, hAll, hLength, hGroups⟩ := ih hMore hRest
    have hPositive := List.length_pos_iff.2 hMore
    have hFull : first.length = 3 := by omega
    refine ⟨[d], first :: rest, ?_, ?_, ?_, ?_⟩
    · have hAlone : ',' ∉ [d] := mt List.mem_singleton.1 hFirst
      rw [← hSplit]
      exact List.splitOn_append_cons_self_of_not_mem hAlone (groupDigits ds)
    · rw [List.flatten_cons, hAll, List.singleton_append]
    · simp [hThird]
    · exact List.forall_mem_cons.2 ⟨hFull, hGroups⟩
  | case4 d ds hMore hThird ih =>
    obtain ⟨hFirst, hRest⟩ := not_or.1 (mt List.mem_cons.2 hComma)
    obtain ⟨first, rest, hSplit, hAll, hLength, hGroups⟩ := ih hMore hRest
    have hPositive := List.length_pos_iff.2 hMore
    refine ⟨d :: first, rest, ?_, ?_, ?_, hGroups⟩
    · rw [List.splitOn_cons_eq_if_modifyHead, hSplit]
      simp [Ne.symm hFirst]
    · rw [List.cons_append, hAll]
    · simp only [List.length_cons]
      omega

/-- A number in groups is its decimal text once the commas are left out, and they divide it into a
first group of one to three digits and later ones of three. -/
theorem grouped_in_threes (n : Nat) :
    String.ofList ((grouped n).toList.filter (· ≠ ',')) = decimal n ∧
    ∃ first rest, (grouped n).toList.splitOn ',' = first :: rest ∧
      (1 ≤ first.length ∧ first.length ≤ 3) ∧ (∀ group ∈ rest, group.length = 3) ∧
      ∀ group ∈ first :: rest, ∀ c ∈ group, Numeral.isDigit c = true := by
  have hDigit : ∀ c ∈ Nat.toDigits 10 n, Numeral.isDigit c = true :=
    fun c hc => Numeral.isDigit_of_mem_toDigits hc
  have hComma : ',' ∉ Nat.toDigits 10 n := fun h => absurd (hDigit _ h) (by decide)
  have hText : (grouped n).toList = groupDigits (Nat.toDigits 10 n) := String.toList_ofList
  obtain ⟨first, rest, hSplit, hAll, hLength, hGroups⟩ :=
    splitOn_groupDigits Nat.toDigits_ne_nil hComma
  refine ⟨?_, first, rest, ?_, by omega, hGroups, fun group hGroup c hc => hDigit c ?_⟩
  · rw [hText, filter_groupDigits hComma, decimal]
  · rw [hText, hSplit]
  · rw [← hAll, ← List.flatten_cons]
    exact List.mem_flatten.2 ⟨group, hGroup, hc⟩

example : grouped 18446744073709551615 = "18,446,744,073,709,551,615" := by decide

end TapeMachine.Text
