/-
# Lists taken member by member

Fields, digits and the items of a document are all gone through in order, and each of them has to
have a value for the whole to have one.

* `mapM_eq_some_iff`: the list of the values, if every member has one;
* `exists_forall₂_iff`: when there is such a list;
* `foldl_eq_getLast?`: what is left when each member may replace what there was.
-/
import Mathlib.Data.List.Forall2

namespace Handheld

variable {α β : Type}

/-- A list is mapped to the values of its members, in order, if all of them have one. -/
theorem mapM_eq_some_iff {f : α → Option β} {xs : List α} {ys : List β} :
    xs.mapM f = some ys ↔ List.Forall₂ (fun x y => f x = some y) xs ys := by
  induction xs generalizing ys with
  | nil =>
    rw [List.forall₂_nil_left_iff]
    constructor
    · rintro ⟨⟩
      rfl
    · rintro rfl
      rfl
  | cons x xs ih =>
    simp only [List.mapM_cons, bind, Option.bind_eq_some_iff, pure, Option.some.injEq,
      List.forall₂_cons_left_iff, ih]
    constructor
    · rintro ⟨y, first, ys, rest, rfl⟩
      exact ⟨y, ys, first, rest, rfl⟩
    · rintro ⟨y, ys, first, rest, rfl⟩
      exact ⟨y, first, ys, rest, rfl⟩

/-- There is a list of values if every member has one. -/
theorem exists_forall₂_iff {R : α → β → Prop} {l : List α} :
    (∃ bs, List.Forall₂ R l bs) ↔ ∀ a ∈ l, ∃ b, R a b := by
  induction l with
  | nil => simp
  | cons a l ih =>
    rw [List.forall_mem_cons, ← ih]
    simp only [List.forall₂_cons_left_iff]
    constructor
    · rintro ⟨_, b, bs, first, rest, rfl⟩
      exact ⟨⟨b, first⟩, bs, rest⟩
    · rintro ⟨⟨b, first⟩, bs, rest⟩
      exact ⟨_, b, bs, first, rest, rfl⟩

/-- What every step replaces by what it gives, if it gives something, is in the end what was given
last. -/
theorem foldl_eq_getLast? {γ : Type} {step : γ → α → γ} {given : α → Option β} {f : γ → β}
    (h : ∀ c a, f (step c a) = (given a).getD (f c)) (as : List α) (c : γ) :
    f (as.foldl step c) = (as.filterMap given).getLast?.getD (f c) := by
  induction as generalizing c with
  | nil => rfl
  | cons a as ih =>
    rw [List.foldl_cons, ih, h]
    cases here : given a with
    | none => rw [List.filterMap_cons_none here, Option.getD_none]
    | some b => rw [List.filterMap_cons_some here, List.getLast?_cons, Option.getD_some,
        Option.getD_some]

end Handheld
