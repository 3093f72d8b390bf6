/-!
# Sorting

Values are sorted by inserting one after the other, so equal values keep their order.

## Main definitions

* `sortedBy`: the values of a list in the order that a comparison gives.

## Main results

* `sortedBy_perm`, `pairwise_sortedBy`: the same values, in order.
-/

namespace GoPlanner

variable {α : Type}

/-- Puts a value in front of the first one that it may stand before. -/
def insertedBy (le : α → α → Bool) (x : α) : List α → List α
  | [] => [x]
  | y :: ys => if le x y then x :: y :: ys else y :: insertedBy le x ys

/-- **The values in order.** -/
def sortedBy (le : α → α → Bool) (xs : List α) : List α :=
  xs.foldr (insertedBy le) []

/-- Inserting adds the value and nothing else. -/
@[simp] theorem mem_insertedBy {le : α → α → Bool} {x y : α} {xs : List α} :
    y ∈ insertedBy le x xs ↔ y = x ∨ y ∈ xs := by
  induction xs with
  | nil => simp [insertedBy]
  | cons z zs ih =>
    unfold insertedBy
    split
    · simp
    · simp [ih, or_left_comm]

/-- Sorting keeps all values. -/
@[simp] theorem mem_sortedBy {le : α → α → Bool} {y : α} {xs : List α} :
    y ∈ sortedBy le xs ↔ y ∈ xs := by
  induction xs with
  | nil => simp [sortedBy]
  | cons x xs ih =>
    rw [show sortedBy le (x :: xs) = insertedBy le x (sortedBy le xs) from rfl]
    simp [ih]

/-- Inserting rearranges. -/
theorem insertedBy_perm {le : α → α → Bool} {x : α} {xs : List α} :
    (insertedBy le x xs).Perm (x :: xs) := by
  induction xs with
  | nil => exact List.Perm.refl _
  | cons y ys ih =>
    unfold insertedBy
    split
    · exact List.Perm.refl _
    · exact (ih.cons y).trans (List.Perm.swap x y ys)

/-- **Sorting rearranges.** -/
theorem sortedBy_perm {le : α → α → Bool} {xs : List α} : (sortedBy le xs).Perm xs := by
  induction xs with
  | nil => exact List.Perm.refl _
  | cons x xs ih => exact insertedBy_perm.trans (ih.cons x)

/-- Values that are changed without effect on the comparison stay in their order. -/
theorem sortedBy_map {le : α → α → Bool} (f : α → α) (h : ∀ x y, le (f x) (f y) = le x y)
    (xs : List α) : sortedBy le (xs.map f) = (sortedBy le xs).map f := by
  have hinserted (x : α) (ys : List α) :
      insertedBy le (f x) (ys.map f) = (insertedBy le x ys).map f := by
    induction ys with
    | nil => rfl
    | cons y ys ih =>
      rw [List.map_cons, insertedBy, insertedBy, h, ih]
      split <;> rfl
  induction xs with
  | nil => rfl
  | cons x xs ih =>
    change insertedBy le (f x) (sortedBy le (xs.map f)) = _
    rw [ih, hinserted]
    rfl

/-- A value is put where it belongs, if the comparison is an order of all values. -/
theorem pairwise_insertedBy {le : α → α → Bool} (htrans : ∀ x y z, le x y → le y z → le x z)
    (htotal : ∀ x y, le x y || le y x) {x : α} {xs : List α} (h : xs.Pairwise (le · ·)) :
    (insertedBy le x xs).Pairwise (le · ·) := by
  induction xs with
  | nil => simp [insertedBy]
  | cons y ys ih =>
    obtain ⟨hy, hys⟩ := List.pairwise_cons.1 h
    unfold insertedBy
    split
    · rename_i hxy
      refine List.pairwise_cons.2 ⟨fun z hz => ?_, h⟩
      rcases List.mem_cons.1 hz with rfl | hz
      · exact hxy
      · exact htrans x y z hxy (hy z hz)
    · rename_i hxy
      have hyx : le y x = true := by simpa [hxy] using htotal x y
      refine List.pairwise_cons.2 ⟨fun z hz => ?_, ih hys⟩
      rcases mem_insertedBy.1 hz with rfl | hz
      · exact hyx
      · exact hy z hz

/-- **Sorting puts values in order.** -/
theorem pairwise_sortedBy {le : α → α → Bool} (htrans : ∀ x y z, le x y → le y z → le x z)
    (htotal : ∀ x y, le x y || le y x) {xs : List α} : (sortedBy le xs).Pairwise (le · ·) := by
  induction xs with
  | nil => exact List.Pairwise.nil
  | cons x xs ih => exact pairwise_insertedBy htrans htotal ih

end GoPlanner
