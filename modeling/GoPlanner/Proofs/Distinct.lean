import Mathlib.Data.List.Basic

/-!
# First Occurrences

What is recorded once is a list of first occurrences: an element that comes again is passed over.

## Main results

* `nodup_eraseDups`, `eraseDups_of_nodup`: first occurrences are not repeated.
* `eraseDups_concat`: what one more element adds.
* `eraseDups_filterMap_eraseDups`: first occurrences of what is picked out.
-/

namespace GoPlanner

variable {α β : Type} [BEq α] [LawfulBEq α]

/-- First occurrences are not repeated. -/
theorem nodup_eraseDups : ∀ l : List α, l.eraseDups.Nodup
  | [] => List.nodup_nil
  | a :: l => by
      have hlength : (l.filter (fun b => !b == a)).length < l.length + 1 :=
        Nat.lt_succ_of_le (List.length_filter_le _ _)
      rw [List.eraseDups_cons, List.nodup_cons]
      exact ⟨by simp, nodup_eraseDups _⟩
termination_by l => l.length

/-- A list without repetitions is that of its first occurrences. -/
theorem eraseDups_of_nodup {l : List α} (h : l.Nodup) : l.eraseDups = l := by
  induction l with
  | nil => rfl
  | cons a l ih =>
      obtain ⟨hnew, hrest⟩ := List.nodup_cons.1 h
      have hfilter : l.filter (fun b => !b == a) = l :=
        List.filter_eq_self.2 fun b hb => by simpa using ne_of_mem_of_not_mem hb hnew
      rw [List.eraseDups_cons, hfilter, ih hrest]

/-- **One more element** comes last, unless it has occurred. -/
theorem eraseDups_concat (l : List α) (a : α) :
    (l ++ [a]).eraseDups = if a ∈ l then l.eraseDups else l.eraseDups ++ [a] := by
  rw [List.eraseDups_append]
  split
  · rename_i hmem
    simp [List.removeAll, hmem]
  · rename_i hnew
    simp [List.removeAll, hnew, List.eraseDups_cons]

/-- Only first occurrences matter for the first occurrences of what they are mapped to. -/
theorem eraseDups_filterMap_eraseDups [BEq β] [LawfulBEq β] (f : α → Option β) :
    ∀ l : List α, (l.eraseDups.filterMap f).eraseDups = (l.filterMap f).eraseDups
  | [] => rfl
  | a :: l => by
      have hlength : (l.filter (fun b => !b == a)).length < l.length + 1 :=
        Nat.lt_succ_of_le (List.length_filter_le _ _)
      -- Other occurrences of the first element do not matter if it is mapped to nothing.
      have hskip (f : α → Option β) (hf : f a = none) :
          (l.filter (fun b => !b == a)).filterMap f = l.filterMap f := by
        rw [List.filterMap_filter]
        refine List.filterMap_congr fun b _ => ?_
        by_cases hb : b = a <;> simp [hb, hf]
      rw [List.eraseDups_cons]
      cases ha : f a with
      | none =>
          rw [List.filterMap_cons_none ha, List.filterMap_cons_none ha,
            eraseDups_filterMap_eraseDups f, hskip f ha]
      | some b =>
          rw [List.filterMap_cons_some ha, List.filterMap_cons_some ha, List.eraseDups_cons,
            List.eraseDups_cons, List.filter_filterMap, List.filter_filterMap,
            eraseDups_filterMap_eraseDups, hskip _ (by simp [ha])]
termination_by l => l.length

end GoPlanner
