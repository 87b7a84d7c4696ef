import Mathlib.Algebra.GroupWithZero.Nat
import TapeMachine.Profile

/-! The counts of a profile after additions, and their sum.  One addition changes one count and adds
to the total; from that a whole sequence of additions is, for every category and for the total, a
sum that stops at the greatest count once (`additions_saturate`). -/

namespace TapeMachine.Profile

@[simp] theorem get_zero (category : Category) : zero.get category = 0 := by
  cases category <;> rfl

theorem get_add (p : Profile) (added category : Category) (amount : Nat) :
    (p.add added amount).get category =
      if category = added then sum (p.get category) amount else p.get category := by
  cases added <;> cases category <;> rfl

/-- Stopping at the greatest count at every step is stopping there at the end. -/
theorem foldl_sum {start : Nat} (h : start ≤ maxCount) (amounts : List Nat) :
    amounts.foldl sum start = min (start + amounts.sum) maxCount := by
  induction amounts generalizing start with
  | nil => simp [h]
  | cons amount amounts ih =>
    have hNext : sum start amount ≤ maxCount := Nat.min_le_right _ _
    rw [List.foldl_cons, ih hNext, List.sum_cons]
    unfold sum
    omega

/-- The sum of the counts, which may pass the greatest count. -/
def exactTotal (p : Profile) : Nat :=
  p.memory + p.arithmetic + p.branch + p.call + p.console + p.control

theorem total_eq_min (p : Profile) : p.total = min p.exactTotal maxCount := by
  have hTotal : p.total = (p.counts.map Prod.snd).foldl sum 0 := List.foldl_map.symm
  have hExact : (p.counts.map Prod.snd).sum = p.exactTotal := by
    simp [counts, Category.all, get, exactTotal, Nat.add_assoc]
  rw [hTotal, foldl_sum (Nat.zero_le _), Nat.zero_add, hExact]

theorem get_le_exactTotal (p : Profile) (category : Category) :
    p.get category ≤ p.exactTotal := by
  unfold exactTotal
  cases category <;> simp only [get] <;> omega

theorem exactTotal_add_one {p : Profile} (h : p.exactTotal < maxCount) (category : Category) :
    (p.add category 1).exactTotal = p.exactTotal + 1 := by
  unfold exactTotal at h ⊢
  cases category <;> simp only [add, sum] <;> omega

/-! ### Sequences of additions -/

theorem ext_get {p q : Profile} (h : ∀ category, p.get category = q.get category) : p = q := by
  cases p
  cases q
  rw [mk.injEq]
  exact ⟨h .memory, h .arithmetic, h .branch, h .call, h .console, h .control⟩

/-- A count that is cut off at the greatest one is still cut off in the total, so the total grows as
if there were one count only. -/
theorem total_add (p : Profile) (category : Category) (amount : Nat) :
    (p.add category amount).total = sum p.total amount := by
  rw [total_eq_min, total_eq_min]
  unfold exactTotal
  cases category <;> simp only [add, sum] <;> omega

/-- The profile after additions to one that exists. -/
def addAll (p : Profile) (additions : List (Category × Nat)) : Profile :=
  additions.foldl (fun q addition => q.add addition.1 addition.2) p

/-- The amounts that are added to a category, in order. -/
def amountsOf (category : Category) (additions : List (Category × Nat)) : List Nat :=
  (additions.filter fun addition => addition.1 = category).map Prod.snd

theorem get_addAll (p : Profile) (additions : List (Category × Nat)) (category : Category) :
    (p.addAll additions).get category =
      (amountsOf category additions).foldl sum (p.get category) := by
  induction additions generalizing p with
  | nil => rfl
  | cons addition additions ih =>
    obtain ⟨added, amount⟩ := addition
    show ((p.add added amount).addAll additions).get category = _
    rw [ih, get_add]
    by_cases hSame : category = added
    · simp [amountsOf, hSame]
    · simp [amountsOf, hSame, Ne.symm hSame]

theorem total_addAll (p : Profile) (additions : List (Category × Nat)) :
    (p.addAll additions).total = (additions.map Prod.snd).foldl sum p.total := by
  induction additions generalizing p with
  | nil => rfl
  | cons addition additions ih =>
    show ((p.add addition.1 addition.2).addAll additions).total = _
    rw [ih, total_add, List.map_cons, List.foldl_cons]

theorem foldl_sum_zero (amounts : List Nat) :
    amounts.foldl sum 0 = min (UInt64.size - 1) amounts.sum := by
  have hGreatest : maxCount = UInt64.size - 1 := rfl
  rw [foldl_sum (Nat.zero_le _), Nat.zero_add, Nat.min_comm, hGreatest]

/-- After additions to a new profile, in any order, every count is the exact sum of what was added
to its category, and the total the exact sum of everything, or `2^64 - 1` where that is less.  So
additions in another order give the same profile, and a count is not changed by what is added to the
other categories. -/
theorem additions_saturate (additions : List (Category × Nat)) :
    (∀ category, (zero.addAll additions).get category =
      min (UInt64.size - 1) (amountsOf category additions).sum) ∧
    (zero.addAll additions).total = min (UInt64.size - 1) (additions.map Prod.snd).sum ∧
    (∀ others, additions.Perm others → zero.addAll others = zero.addAll additions) ∧
    (∀ category others, (amountsOf category additions).Perm (amountsOf category others) →
      (zero.addAll others).get category = (zero.addAll additions).get category) := by
  have hCount (sequence : List (Category × Nat)) (category : Category) :
      (zero.addAll sequence).get category =
        min (UInt64.size - 1) (amountsOf category sequence).sum := by
    rw [get_addAll, get_zero, foldl_sum_zero]
  have hOrder (category : Category) (others : List (Category × Nat))
      (h : (amountsOf category additions).Perm (amountsOf category others)) :
      (zero.addAll others).get category = (zero.addAll additions).get category := by
    rw [hCount, hCount, h.sum_nat]
  refine ⟨hCount additions, ?_, fun others h => ?_, hOrder⟩
  · rw [total_addAll, show zero.total = 0 from rfl, foldl_sum_zero]
  · exact ext_get fun category => hOrder category others ((h.filter _).map Prod.snd)

/-- Additions that fill one count, pass it, and leave the total with nothing to add. -/
def fullCount : List (Category × Nat) :=
  [(.memory, 0xFFFFFFFFFFFFFFFF), (.call, 1), (.memory, 1), (.call, 2)]

theorem additions_saturate_fullCount :
    (zero.addAll fullCount).get .memory = 0xFFFFFFFFFFFFFFFF ∧
    (zero.addAll fullCount).get .call = 3 ∧
    (zero.addAll fullCount).total = 0xFFFFFFFFFFFFFFFF ∧
    fullCount.Perm fullCount.reverse ∧
    zero.addAll fullCount.reverse = zero.addAll fullCount ∧
    (amountsOf .call fullCount).Perm (amountsOf .call [(.call, 2), (.call, 1)]) ∧
    (zero.addAll [(.call, 2), (.call, 1)]).get .call = (zero.addAll fullCount).get .call := by
  obtain ⟨hCounts, hTotal, hOrder, hApart⟩ := additions_saturate fullCount
  have hReverse : fullCount.Perm fullCount.reverse := fullCount.reverse_perm.symm
  have hCalls : (amountsOf .call fullCount).Perm (amountsOf .call [(.call, 2), (.call, 1)]) :=
    List.Perm.swap 2 1 []
  exact ⟨hCounts .memory, hCounts .call, hTotal, hReverse, hOrder _ hReverse, hCalls,
    hApart .call _ hCalls⟩

end TapeMachine.Profile
