import Mathlib.Data.List.Basic

/-!
# Lists of workers

The services keep what they are in the middle of as a list, in which every event replaces one entry. What the others do
is not touched by it.
-/

namespace Kyneto

variable {α β : Type}

/-- Less in one place, less in all places together. -/
theorem flatMap_set_sublist {f : α → List β} {l : List α} {i : Nat} {a b : α} (h : l[i]? = some a)
    (hle : (f b).Sublist (f a)) : ((l.set i b).flatMap f).Sublist (l.flatMap f) := by
  induction l generalizing i with
  | nil => cases h
  | cons x l ih =>
    cases i with
    | zero =>
      obtain rfl : x = a := by simpa using h
      simpa using hle.append (List.Sublist.refl (l.flatMap f))
    | succ i =>
      have hrest := ih (i := i) (by simpa using h)
      simpa using (List.Sublist.refl (f x)).append hrest

theorem mem_set_of_ne {l : List α} {i : Nat} {a b c : α} (h : l[i]? = some a) (hc : c ∈ l) (hne : c ≠ a) :
    c ∈ l.set i b := by
  obtain ⟨j, hj⟩ := List.mem_iff_getElem?.mp hc
  have hij : i ≠ j := by
    rintro rfl
    exact hne (Option.some.inj (hj.symm.trans h))
  exact List.mem_iff_getElem?.mpr ⟨j, by rw [List.getElem?_set_ne hij, hj]⟩

theorem mem_set_of_getElem? {l : List α} {i : Nat} {a : α} (h : l[i]? = some a) (b : α) : b ∈ l.set i b :=
  List.mem_set (List.getElem?_eq_some_iff.mp h).1 b

/-- Replacing one entry of a list, without a subtraction. -/
theorem countP_set_add {f : α → Bool} {l : List α} {i : Nat} {x y : α} (h : l[i]? = some x) :
    (l.set i y).countP f + (if f x then 1 else 0) = l.countP f + if f y then 1 else 0 := by
  obtain ⟨hi, rfl⟩ := List.getElem?_eq_some_iff.mp h
  have hle : (if f l[i] then 1 else 0) ≤ l.countP f := by
    split
    · next hf => exact List.countP_pos_iff.mpr ⟨_, List.getElem_mem hi, hf⟩
    · exact Nat.zero_le _
  rw [List.countP_set hi]
  omega

end Kyneto
