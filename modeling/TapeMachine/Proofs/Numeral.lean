import TapeMachine.Operand

/-! Printed numbers are read back.  `int64?_ofInt64` covers every cell value, the least one
included. -/

namespace TapeMachine

theorem Text.decimal_toList (n : Nat) : (Text.decimal n).toList = Nat.toDigits 10 n :=
  String.toList_ofList

theorem Text.decimal_injective {m n : Nat} (h : Text.decimal m = Text.decimal n) : m = n := by
  have hDigits : Nat.toDigits 10 m = Nat.toDigits 10 n := by
    rw [← decimal_toList, ← decimal_toList, h]
  rw [← Nat.ofDigitChars_ten_toDigits (n := m), hDigits, Nat.ofDigitChars_ten_toDigits]

namespace Numeral

theorem isDigit_of_mem_toDigits {n : Nat} {c : Char} (h : c ∈ Nat.toDigits 10 n) :
    isDigit c = true :=
  Nat.isDigit_of_mem_toDigits (by decide) (by decide) h

theorem isDigit_of_mem_decimal {n : Nat} {c : Char} (h : c ∈ (Text.decimal n).toList) :
    isDigit c = true :=
  isDigit_of_mem_toDigits (Text.decimal_toList n ▸ h)

theorem digits?_toDigits (n : Nat) : digits? (Nat.toDigits 10 n) = some n := by
  have hAll : (Nat.toDigits 10 n).all isDigit = true :=
    List.all_eq_true.2 fun _ hc => isDigit_of_mem_toDigits hc
  simp [digits?, hAll, Nat.toDigits_ne_nil]

/-- Digits have no sign in front. -/
theorem signed?_toDigits (n : Nat) : signed? (Nat.toDigits 10 n) = some (n : Int) := by
  have hDigits := digits?_toDigits n
  unfold signed?
  split
  case h_1 cs hSign =>
    have := isDigit_of_mem_toDigits (c := '-') (hSign ▸ List.mem_cons_self)
    simp [isDigit] at this
  case h_2 cs hSign =>
    have := isDigit_of_mem_toDigits (c := '+') (hSign ▸ List.mem_cons_self)
    simp [isDigit] at this
  case h_3 =>
    rw [hDigits]
    rfl

theorem signed?_ofInt (v : Int) : signed? (ofInt v).toList = some v := by
  by_cases hSign : v < 0
  · simp only [ofInt, hSign, if_true, String.toList_append, Text.decimal_toList]
    rw [show "-".toList = ['-'] from rfl, List.singleton_append, signed?, digits?_toDigits]
    show some (-(v.natAbs : Int)) = some v
    congr 1
    omega
  · simp only [ofInt, hSign, if_false, Text.decimal_toList]
    rw [signed?_toDigits]
    congr 1
    omega

/-- Every cell value is read back from its text. -/
theorem int64?_ofInt64 (v : Int64) : int64? (ofInt64 v) = some v := by
  have hLow : Int64.minValue.toInt ≤ v.toInt := v.minValue_le_toInt
  have hHigh : v.toInt ≤ Int64.maxValue.toInt := v.toInt_le
  simp only [int64?, ofInt64, signed?_ofInt, Option.bind_some, hLow, hHigh, and_self, if_true,
    Int64.ofInt_toInt]

/-- A value that is not negative is written in digits only. -/
theorem ofInt64_of_not_neg {v : Int64} (h : ¬v < 0) : ofInt64 v = Text.decimal v.toInt.toNat := by
  have hSign : ¬v.toInt < 0 := by rwa [Int64.lt_iff_toInt_lt, Int64.toInt_zero] at h
  have hNat : v.toInt.natAbs = v.toInt.toNat := by omega
  simp only [ofInt64, ofInt, hSign, if_false, hNat]

theorem mem_ofInt64 {v : Int64} {c : Char} (h : c ∈ (ofInt64 v).toList) :
    c = '-' ∨ isDigit c = true := by
  unfold ofInt64 ofInt at h
  split at h
  · rw [String.toList_append, List.mem_append, Text.decimal_toList] at h
    exact h.imp (by simp) isDigit_of_mem_toDigits
  · rw [Text.decimal_toList] at h
    exact .inr (isDigit_of_mem_toDigits h)

theorem ofInt64_ne_nil (v : Int64) : (ofInt64 v).toList ≠ [] := by
  unfold ofInt64 ofInt
  split <;> simp [Text.decimal_toList, Nat.toDigits_ne_nil]

end Numeral

end TapeMachine
