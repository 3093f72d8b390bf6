import GoPlanner.Path
import GoPlanner.Proofs.Text.Lines
import Mathlib.Data.List.Basic

/-!
# Extensions of File Names

A file name is divided at its last dot, unless nothing stands before that dot. What stands before it
may have dots again.

## Main results

* `splitExtension?_append`, `eq_append_of_splitExtension?`: the names that are divided.
-/

namespace GoPlanner

variable {name stem written : String}

/-- An extension is the last part of a name between dots. -/
theorem splitOn_append_extension (name : String) {extension : String}
    (hdot : '.' ∉ extension.toList) : (name ++ "." ++ extension).toList.splitOn '.' =
      name.toList.splitOn '.' ++ [extension.toList] := by
  have htext : (name ++ "." ++ extension).toList = name.toList ++ '.' :: extension.toList := by
    simp
  rw [htext, List.splitOn_append_cons_self, List.splitOn_eq_singleton hdot]

theorem intercalate_dots (stem : String) :
    ".".intercalate ((stem.toList.splitOn '.').map String.ofList) = stem := by
  rw [← String.toList_inj, String.toList_intercalate, List.map_map]
  simp [Function.comp_def, List.intercalate_splitOn]

/-- A name is divided at its last dot. -/
theorem splitExtension?_append (hstem : stem ≠ "") (hdot : '.' ∉ written.toList)
    (hup : stem ++ "." ++ written ≠ "..") :
    splitExtension? (stem ++ "." ++ written) = some (stem, written) := by
  have hlength : 1 ≤ (stem.toList.splitOn '.').length :=
    List.length_pos_of_ne_nil (List.splitOn_ne_nil '.' stem.toList)
  rw [splitExtension?, splitOn_append_extension stem hdot]
  simpa [hup, intercalate_dots, hstem] using hlength

/-- A name that is divided has a dot there, and none behind it. -/
theorem eq_append_of_splitExtension? (h : splitExtension? name = some (stem, written)) :
    stem ≠ "" ∧ name = stem ++ "." ++ written ∧ '.' ∉ written.toList := by
  by_cases hdot : '.' ∈ name.toList
  · obtain ⟨before, last, hchars, hlast⟩ := exists_last_of_mem hdot
    obtain rfl : name = String.ofList before ++ "." ++ String.ofList last := by
      rw [← String.toList_inj, hchars]
      simp
    have hextension : '.' ∉ (String.ofList last).toList := by simpa using hlast
    by_cases hup : String.ofList before ++ "." ++ String.ofList last = ".."
    · rw [splitExtension?, if_pos (by simp [hup])] at h
      cases h
    · by_cases hstem : String.ofList before = ""
      · rw [splitExtension?, splitOn_append_extension _ hextension] at h
        simp [hstem] at h
      · rw [splitExtension?_append hstem hextension hup, Option.some.injEq, Prod.mk.injEq] at h
        obtain ⟨rfl, rfl⟩ := h
        exact ⟨hstem, rfl, hextension⟩
  · rw [splitExtension?, List.splitOn_eq_singleton hdot] at h
    simp at h

end GoPlanner
