import Mathlib.Data.List.Forall2

/-! When a computation that may fail succeeds, with what errors it fails, when two of them agree and
when they are the same but for certain errors: one fact for each way of putting computations
together. -/

namespace TapeMachine.Outcome

variable {ε δ α β : Type} {x : Except ε α}

theorem map_eq_ok_iff {f : α → β} {b : β} :
    x.map f = .ok b ↔ ∃ a, x = .ok a ∧ f a = b := by
  cases x <;> simp [Except.map]

theorem map_eq_error_iff {f : α → β} {e : ε} :
    x.map f = .error e ↔ x = .error e := by
  cases x <;> simp [Except.map]

theorem mapError_eq_ok_iff {f : ε → δ} {a : α} : x.mapError f = .ok a ↔ x = .ok a := by
  cases x <;> simp [Except.mapError]

theorem bind_eq_ok_iff {f : α → Except ε β} {b : β} :
    x >>= f = .ok b ↔ ∃ a, x = .ok a ∧ f a = .ok b := by
  cases x <;> simp [bind, Except.bind]

/-- A list of computations succeeds when each one does, with the list of their results. -/
theorem mapM_eq_ok_iff {f : α → Except ε β} {xs : List α} {ys : List β} :
    xs.mapM f = .ok ys ↔ List.Forall₂ (fun x y => f x = .ok y) xs ys := by
  induction xs generalizing ys with
  | nil =>
    rw [List.mapM_nil, List.forall₂_nil_left_iff]
    constructor
    · rintro ⟨⟩
      rfl
    · rintro rfl
      rfl
  | cons x xs ih =>
    rw [List.mapM_cons, bind_eq_ok_iff, List.forall₂_cons_left_iff]
    constructor
    · rintro ⟨y, hy, h⟩
      obtain ⟨zs, hzs, ⟨⟩⟩ := bind_eq_ok_iff.1 h
      exact ⟨y, zs, hy, ih.1 hzs, rfl⟩
    · rintro ⟨y, zs, hy, hzs, rfl⟩
      exact ⟨y, hy, bind_eq_ok_iff.2 ⟨zs, ih.2 hzs, rfl⟩⟩

/-- The first element of a list with a property is its head, or else the first one after it. -/
theorem exists_first_cons_iff {P Q : α → Prop} {x : α} {xs : List α} :
    (∃ before y after, x :: xs = before ++ y :: after ∧ (∀ other ∈ before, P other) ∧ Q y) ↔
      Q x ∨ P x ∧ ∃ before y after, xs = before ++ y :: after ∧ (∀ other ∈ before, P other) ∧
        Q y := by
  constructor
  · rintro ⟨before, y, after, hSplit, hBefore, hy⟩
    cases before with
    | nil =>
      cases hSplit
      exact .inl hy
    | cons _ before =>
      cases hSplit
      obtain ⟨hx, hRest⟩ := List.forall_mem_cons.1 hBefore
      exact .inr ⟨hx, before, y, after, rfl, hRest, hy⟩
  · rintro (hx | ⟨hx, before, y, after, rfl, hBefore, hy⟩)
    · exact ⟨[], x, xs, rfl, List.forall_mem_nil _, hx⟩
    · exact ⟨x :: before, y, after, rfl, List.forall_mem_cons.2 ⟨hx, hBefore⟩, hy⟩

/-- A list of computations fails as the first one of them that does. -/
theorem mapM_eq_error_iff {f : α → Except ε β} {xs : List α} {e : ε} :
    xs.mapM f = .error e ↔ ∃ before x after, xs = before ++ x :: after ∧
      (∀ other ∈ before, ∀ e', f other ≠ .error e') ∧ f x = .error e := by
  induction xs with
  | nil => simp [pure, Except.pure]
  | cons x xs ih =>
    rw [exists_first_cons_iff, ← ih, List.mapM_cons]
    cases f x with
    | error e' => simp [bind, Except.bind]
    | ok y => cases xs.mapM f <;> simp [bind, Except.bind, pure, Except.pure]

/-- What corresponds to an element of the second list stands at the same place in the first. -/
theorem getElem?_of_forall₂ {R : α → β → Prop} {xs : List α} {ys : List β}
    (h : List.Forall₂ R xs ys) {k : Nat} {y : β} (hy : ys[k]? = some y) :
    ∃ x, xs[k]? = some x ∧ R x y := by
  induction h generalizing k with
  | nil => simp at hy
  | @cons x _ _ _ hxy _ ih =>
    cases k with
    | zero =>
      obtain rfl : _ = y := by simpa using hy
      exact ⟨x, rfl, hxy⟩
    | succ k =>
      obtain ⟨x', hx', hxy'⟩ := ih (by simpa using hy)
      exact ⟨x', by simpa using hx', hxy'⟩

theorem forall₂_filter_filterMap {γ : Type} {R : α → β → Prop} {S : α → γ → Prop} {p : α → Bool}
    {f : β → Option γ} (h : ∀ x y, R x y → (p x = false ∧ f y = none) ∨
      ∃ z, p x = true ∧ f y = some z ∧ S x z)
    {xs : List α} {ys : List β} (hxy : List.Forall₂ R xs ys) :
    List.Forall₂ S (xs.filter p) (ys.filterMap f) := by
  induction hxy with
  | nil => exact .nil
  | @cons x y _ _ hFirst _ ih =>
    rcases h x y hFirst with ⟨hp, hf⟩ | ⟨z, hp, hf, hz⟩
    · rwa [List.filter_cons_of_neg (by simp [hp]), List.filterMap_cons_none hf]
    · rw [List.filter_cons_of_pos hp, List.filterMap_cons_some hf]
      exact .cons hz ih

/-! ### Errors -/

/-- All errors that a computation fails with satisfy `P`. -/
def FailsWith (P : ε → Prop) (x : Except ε α) : Prop :=
  ∀ e, x = .error e → P e

namespace FailsWith

variable {P : ε → Prop} {f : α → Except ε β}

theorem ok (a : α) : FailsWith P (.ok a : Except ε α) :=
  nofun

theorem error {e : ε} (h : P e) : FailsWith P (.error e : Except ε α) := by
  rintro _ ⟨⟩
  exact h

theorem bind_of_ok (hx : FailsWith P x) (hf : ∀ a, x = .ok a → FailsWith P (f a)) :
    FailsWith P (x >>= f) := by
  cases x with
  | error e => exact error (hx e rfl)
  | ok a => exact hf a rfl

theorem bind (hx : FailsWith P x) (hf : ∀ a, FailsWith P (f a)) : FailsWith P (x >>= f) :=
  hx.bind_of_ok fun a _ => hf a

theorem map {g : α → β} (hx : FailsWith P x) : FailsWith P (x.map g) := by
  cases x with
  | error e => exact error (hx e rfl)
  | ok a => exact ok (g a)

theorem mapError_imp {Q : δ → Prop} {g : ε → δ} (hx : FailsWith P x)
    (h : ∀ e, P e → Q (g e)) : FailsWith Q (x.mapError g) := by
  cases x with
  | error e => exact error (h e (hx e rfl))
  | ok a => exact ok a

theorem mapError {Q : δ → Prop} {g : ε → δ} (h : ∀ e, Q (g e)) : FailsWith Q (x.mapError g) :=
  mapError_imp (fun _ _ => trivial) fun e (_ : True) => h e

end FailsWith

/-! ### Agreement -/

/-- Two computations that give the same result, or errors related by `P`. -/
inductive Agree (P : ε → δ → Prop) : Except ε α → Except δ α → Prop
  | ok (a : α) : Agree P (.ok a) (.ok a)
  | error {e : ε} {d : δ} (h : P e d) : Agree P (.error e) (.error d)

namespace Agree

variable {P : ε → δ → Prop} {y : Except δ α}

theorem imp {Q : ε → δ → Prop} (h : Agree P x y) (hPQ : ∀ e d, P e d → Q e d) : Agree Q x y := by
  cases h with
  | ok a => exact .ok a
  | error he => exact .error (hPQ _ _ he)

theorem bind {f : α → Except ε β} {g : α → Except δ β} (h : Agree P x y)
    (hNext : ∀ a, Agree P (f a) (g a)) : Agree P (x >>= f) (y >>= g) := by
  cases h with
  | ok a => exact hNext a
  | error he => exact .error he

theorem map {f : α → β} (h : Agree P x y) : Agree P (x.map f) (y.map f) := by
  cases h with
  | ok a => exact .ok (f a)
  | error he => exact .error he

theorem mapError {θ : Type} {x : Except θ α} {f : θ → ε} {g : θ → δ} (h : ∀ e, P (f e) (g e)) :
    Agree P (x.mapError f) (x.mapError g) := by
  cases x with
  | ok a => exact .ok a
  | error e => exact .error (h e)

theorem iff_or :
    Agree P x y ↔
      (∃ a, x = .ok a ∧ y = .ok a) ∨ ∃ e d, x = .error e ∧ y = .error d ∧ P e d := by
  constructor
  · rintro (⟨a⟩ | ⟨h⟩)
    · exact .inl ⟨a, rfl, rfl⟩
    · exact .inr ⟨_, _, rfl, rfl, h⟩
  · rintro (⟨a, rfl, rfl⟩ | ⟨e, d, rfl, rfl, h⟩)
    · exact .ok a
    · exact .error h

theorem eq_ok {a : α} (h : Agree P x y) (hx : x = .ok a) : y = .ok a := by
  cases h with
  | ok b =>
    cases hx
    rfl
  | error he => cases hx

end Agree

/-! ### Sameness but for some errors -/

/-- Two computations that are the same, unless the first fails with an error that satisfies `P`. -/
inductive SameUnless (P : ε → Prop) : Except ε α → Except ε α → Prop
  | same (x : Except ε α) : SameUnless P x x
  | failed {e : ε} {y : Except ε α} (h : P e) : SameUnless P (.error e) y

namespace SameUnless

variable {P : ε → Prop} {y : Except ε α}

theorem bind {f g : α → Except ε β} (h : SameUnless P x y)
    (hNext : ∀ a, SameUnless P (f a) (g a)) : SameUnless P (x >>= f) (y >>= g) := by
  cases h with
  | failed he => exact .failed he
  | same =>
    cases x with
    | error e => exact .same _
    | ok a => exact hNext a

theorem map (h : SameUnless P x y) (f : α → β) : SameUnless P (x.map f) (y.map f) := by
  cases h with
  | failed he => exact .failed he
  | same => exact .same _

theorem iff_or : SameUnless P x y ↔ (∃ e, x = .error e ∧ P e) ∨ x = y := by
  constructor
  · rintro (_ | ⟨he⟩)
    · exact .inr rfl
    · exact .inl ⟨_, rfl, he⟩
  · rintro (⟨e, rfl, he⟩ | rfl)
    · exact .failed he
    · exact .same x

end SameUnless

end TapeMachine.Outcome
