import GoPlanner.Text.Blank
import Mathlib.Data.List.TakeWhile

/-!
# Lines and Blanks

A text is a sequence of lines that line feeds end, and perhaps a last one that nothing ends. Trimming
takes away blanks only, among them the carriage return that may stand before a line feed.

## Main results

* `Text.lines_append`, `Text.lines_ended`: the lines of a text that is put together from lines.
* `Text.lines_induction`: texts are made of lines.
* `Text.notMem_of_mem_lines`: there is no line feed in a line.
* `Text.lines_firstLines`: the first lines of a text.
* `Text.exists_trim_eq`, `Text.trim_dropReturn`: what trimming takes away.
-/

namespace GoPlanner

/-! ### Pieces -/

/-- What is in a text has a last occurrence there. -/
theorem exists_last_of_mem {c : Char} {cs : List Char} (h : c ∈ cs) :
    ∃ before last, cs = before ++ c :: last ∧ c ∉ last := by
  obtain ⟨last, before, hsplit, hlast⟩ := List.eq_append_cons_of_mem (List.mem_reverse.2 h)
  refine ⟨before.reverse, last.reverse, ?_, by simpa using hlast⟩
  rw [← List.reverse_reverse cs, hsplit]
  simp

/-- What is in a text is in one of its parts, and the parts have no separator. -/
theorem exists_mem_splitOn {sep c : Char} {cs : List Char} (hc : c ∈ cs) (hsep : c ≠ sep) :
    ∃ part ∈ cs.splitOn sep, c ∈ part := by
  induction cs with
  | nil => cases hc
  | cons x cs ih =>
      rw [List.splitOn_cons_eq_if_modifyHead]
      rcases List.mem_cons.1 hc with rfl | hc
      · rw [if_neg (by simpa using hsep)]
        obtain ⟨part, parts, hparts⟩ := List.exists_cons_of_ne_nil (List.splitOn_ne_nil sep cs)
        exact ⟨c :: part, by simp [hparts], List.mem_cons_self⟩
      · obtain ⟨part, hpart, hmem⟩ := ih hc
        split
        · exact ⟨part, List.mem_cons_of_mem _ hpart, hmem⟩
        · obtain ⟨first, parts, hparts⟩ := List.exists_cons_of_ne_nil (List.splitOn_ne_nil sep cs)
          rw [hparts] at hpart ⊢
          rcases List.mem_cons.1 hpart with rfl | hpart
          · exact ⟨x :: part, List.mem_cons_self, List.mem_cons_of_mem x hmem⟩
          · exact ⟨part, List.mem_cons_of_mem _ hpart, hmem⟩

theorem notMem_of_mem_splitOn {sep : Char} {cs part : List Char} (h : part ∈ cs.splitOn sep) :
    sep ∉ part := by
  induction cs generalizing part with
  | nil => simp_all
  | cons x cs ih =>
      rw [List.splitOn_cons_eq_if_modifyHead] at h
      obtain ⟨first, parts, hparts⟩ := List.exists_cons_of_ne_nil (List.splitOn_ne_nil sep cs)
      rw [hparts] at h ih
      split at h
      · rcases List.mem_cons.1 h with rfl | h
        · simp
        · exact ih h
      · rename_i hx
        rcases List.mem_cons.1 h with rfl | h
        · have hfirst : sep ∉ first := ih List.mem_cons_self
          rw [List.mem_cons, not_or]
          exact ⟨fun heq => hx (beq_iff_eq.2 heq.symm), hfirst⟩
        · exact ih (List.mem_cons_of_mem _ h)

/-- What is not in a list differs from all of its elements. -/
theorem bne_of_notMem {α : Type} [BEq α] [LawfulBEq α] {a b : α} {l : List α} (h : a ∉ l)
    (hb : b ∈ l) : (b != a) = true :=
  bne_iff_ne.2 (ne_of_mem_of_not_mem hb h)

namespace Text

variable {c : Char} {cs l : List Char} {ls : List (List Char)}

/-! ### Lines -/

@[simp] theorem lines_nil : lines [] = [] :=
  rfl

/-- **A line that a line feed ends** comes first. -/
theorem lines_append_cons (hl : '\n' ∉ l) (cs : List Char) :
    lines (l ++ '\n' :: cs) = dropReturn l :: lines cs := by
  obtain ⟨first, parts, hparts⟩ := List.exists_cons_of_ne_nil (List.splitOn_ne_nil '\n' cs)
  rw [lines, lines, List.splitOn_append_cons_self, List.splitOn_eq_singleton hl, hparts,
    List.singleton_append, List.dropLast_cons_cons, List.getLast?_cons_cons, List.map_cons,
    List.cons_append]

theorem lines_append (hl : '\n' ∉ l) (hlast : l.getLast? ≠ some '\r') :
    lines (l ++ '\n' :: cs) = l :: lines cs := by
  rw [lines_append_cons hl, dropReturn, if_neg hlast]

/-- A line that nothing ends is the last one. -/
theorem lines_eq_singleton (hl : '\n' ∉ l) (hne : l ≠ []) : lines l = [l] := by
  rw [lines, List.splitOn_eq_singleton hl]
  simp [hne]

/-- A text that is put together from lines has these lines, less carriage returns at their ends. -/
theorem lines_flatMap (h : ∀ l ∈ ls, '\n' ∉ l) :
    lines (ls.flatMap (· ++ ['\n'])) = ls.map dropReturn := by
  induction ls with
  | nil => rfl
  | cons l ls ih =>
      obtain ⟨hl, hls⟩ := List.forall_mem_cons.1 h
      rw [List.flatMap_cons, List.append_assoc, List.singleton_append, lines_append_cons hl,
        ih hls, List.map_cons]

/-- **A text that is put together from lines** has these lines. -/
theorem lines_ended (h : ∀ l ∈ ls, '\n' ∉ l ∧ l.getLast? ≠ some '\r') :
    lines (ls.flatMap (· ++ ['\n'])) = ls := by
  have hkept : ∀ l ∈ ls, dropReturn l = l := fun l hl => by rw [dropReturn, if_neg (h l hl).2]
  rw [lines_flatMap fun l hl => (h l hl).1, List.map_congr_left hkept, List.map_id']

/-- **Texts are made of lines.** What holds of a last line, and of a text with one more line in
front, holds of every text. -/
@[elab_as_elim]
theorem lines_induction {motive : List Char → Prop} (last : ∀ l, '\n' ∉ l → motive l)
    (ended : ∀ l cs, '\n' ∉ l → motive cs → motive (l ++ '\n' :: cs)) (cs : List Char) :
    motive cs := by
  induction hlen : cs.length using Nat.strongRecOn generalizing cs with
  | ind n ih =>
      by_cases hfeed : '\n' ∈ cs
      · obtain ⟨l, rest, rfl, hl⟩ := List.eq_append_cons_of_mem hfeed
        refine ended l rest hl (ih rest.length ?_ rest rfl)
        rw [← hlen, List.length_append, List.length_cons]
        omega
      · exact last cs hfeed

/-- **There is no line feed in a line.** -/
theorem notMem_of_mem_lines (h : l ∈ lines cs) : '\n' ∉ l := by
  rw [lines, List.mem_append] at h
  rcases h with h | h
  · obtain ⟨piece, hpiece, rfl⟩ := List.mem_map.1 h
    have hfeed := notMem_of_mem_splitOn (List.dropLast_subset _ hpiece)
    rw [dropReturn]
    split
    · exact fun hmem => hfeed (List.dropLast_subset _ hmem)
    · exact hfeed
  · obtain ⟨hlast, -⟩ := List.mem_filter.1 h
    exact notMem_of_mem_splitOn (List.mem_of_getLast? (Option.mem_toList.1 hlast))

/-- The first line of a text starts with the first character of the text. -/
theorem exists_lines_cons (hc : isBlank c = false) (cs : List Char) :
    ∃ l later, lines (c :: cs) = (c :: l) :: later := by
  have hfeed : c ≠ '\n' := by
    rintro rfl
    exact absurd hc (by decide)
  have hreturn : c ≠ '\r' := by
    rintro rfl
    exact absurd hc (by decide)
  obtain ⟨first, parts, hparts⟩ := List.exists_cons_of_ne_nil (List.splitOn_ne_nil '\n' cs)
  have hpieces : (c :: cs).splitOn '\n' = (c :: first) :: parts := by
    rw [List.splitOn_cons_eq_if_modifyHead, hparts]
    simp [hfeed]
  rw [lines, hpieces]
  cases parts with
  | nil => exact ⟨first, [], rfl⟩
  | cons second parts =>
      rw [List.dropLast_cons_cons, List.map_cons, List.cons_append, dropReturn]
      cases first with
      | nil => exact ⟨[], _, by rw [if_neg (by simpa using hreturn)]⟩
      | cons d ds =>
          split
          · exact ⟨(d :: ds).dropLast, _, rfl⟩
          · exact ⟨d :: ds, _, rfl⟩

/-! ### The first lines -/

/-- **The first lines** of a text, with the line feeds that end them. -/
def firstLines : Nat → List Char → List Char
  | 0, _ => []
  | _ + 1, [] => []
  | n + 1, c :: cs => if c = '\n' then c :: firstLines n cs else c :: firstLines (n + 1) cs

theorem firstLines_zero (cs : List Char) : firstLines 0 cs = [] := by
  cases cs <;> rfl

theorem firstLines_of_notMem (hl : '\n' ∉ l) (n : Nat) : firstLines (n + 1) l = l := by
  induction l with
  | nil => rfl
  | cons c l ih =>
      obtain ⟨hc, hl⟩ := not_or.1 (mt List.mem_cons.2 hl)
      rw [firstLines, if_neg (Ne.symm hc), ih hl]

theorem firstLines_append_cons (hl : '\n' ∉ l) (n : Nat) (cs : List Char) :
    firstLines (n + 1) (l ++ '\n' :: cs) = l ++ '\n' :: firstLines n cs := by
  induction l with
  | nil => rfl
  | cons c l ih =>
      obtain ⟨hc, hl⟩ := not_or.1 (mt List.mem_cons.2 hl)
      rw [List.cons_append, firstLines, if_neg (Ne.symm hc), ih hl, List.cons_append]

/-- **The lines of the first lines** are the first lines. -/
theorem lines_firstLines (n : Nat) (cs : List Char) :
    lines (firstLines n cs) = (lines cs).take n := by
  induction cs using lines_induction generalizing n with
  | last l hl =>
      cases n with
      | zero => rw [firstLines_zero, lines_nil, List.take_zero]
      | succ n =>
          rw [firstLines_of_notMem hl]
          by_cases hne : l = []
          · rw [hne, lines_nil, List.take_nil]
          · rw [lines_eq_singleton hl hne, List.take_succ_cons, List.take_nil]
  | ended l cs hl ih =>
      cases n with
      | zero => rw [firstLines_zero, lines_nil, List.take_zero]
      | succ n =>
          rw [firstLines_append_cons hl, lines_append_cons hl, lines_append_cons hl, ih,
            List.take_succ_cons]

/-! ### Trimming -/

/-- A text with another first character than blanks keeps it when it is trimmed. -/
theorem exists_trim_cons (hc : isBlank c = false) (cs : List Char) :
    ∃ rest, trim (c :: cs) = c :: rest := by
  rw [trim, trimStart, List.dropWhile_cons_of_neg (by simp [hc]), trimEnd,
    List.reverse_cons, List.dropWhile_append]
  split
  · exact ⟨[], by simp [hc]⟩
  · exact ⟨(cs.reverse.dropWhile isBlank).reverse, by simp⟩

/-- **Trimming** takes away blanks in front and at the end. -/
theorem exists_trim_eq (cs : List Char) :
    ∃ front back, cs = front ++ (trim cs ++ back) ∧ (∀ c ∈ front, isBlank c = true) ∧
      ∀ c ∈ back, isBlank c = true := by
  have hfront := List.takeWhile_append_dropWhile (p := isBlank) (l := cs)
  have hback := List.takeWhile_append_dropWhile (p := isBlank) (l := (trimStart cs).reverse)
  refine ⟨cs.takeWhile isBlank, ((trimStart cs).reverse.takeWhile isBlank).reverse, ?_, ?_, ?_⟩
  · rw [trim, trimEnd, ← List.reverse_append, hback, List.reverse_reverse, trimStart, hfront]
  · exact fun c hc => List.mem_takeWhile_imp hc
  · exact fun c hc => List.mem_takeWhile_imp (List.mem_reverse.1 hc)

theorem mem_of_mem_trim (h : c ∈ trim cs) : c ∈ cs := by
  obtain ⟨front, back, heq, -, -⟩ := exists_trim_eq cs
  rw [heq]
  exact List.mem_append_right _ (List.mem_append_left _ h)

/-- **A trimmed text** does not start with a blank. -/
theorem isBlank_of_mem_head?_trim (h : c ∈ (trim cs).head?) : isBlank c = false := by
  rw [trim] at h
  have hstart := List.head?_dropWhile_not isBlank cs
  rw [← trimStart] at hstart
  cases hcs : trimStart cs with
  | nil =>
      rw [hcs] at h
      cases h
  | cons d ds =>
      rw [hcs] at h hstart
      have hd : isBlank d = false := by simpa using hstart
      obtain ⟨rest, hrest⟩ := exists_trim_cons hd ds
      rw [trim, trimStart, List.dropWhile_cons_of_neg (by simp [hd])] at hrest
      rw [hrest] at h
      exact Option.some.inj h ▸ hd

/-- Blanks at the end do not matter for trimming. -/
theorem trim_append_singleton (hc : isBlank c = true) (cs : List Char) :
    trim (cs ++ [c]) = trim cs := by
  rw [trim, trim, trimStart, trimStart, List.dropWhile_append]
  split
  · rename_i hnil
    rw [List.isEmpty_iff.1 hnil]
    simp [hc]
  · rw [trimEnd, trimEnd]
    simp [hc]

/-- **The carriage return of a line** is trimmed in any case. -/
theorem trim_dropReturn (l : List Char) : trim (dropReturn l) = trim l := by
  rw [dropReturn]
  split
  · rename_i hlast
    obtain ⟨before, rfl⟩ := List.getLast?_eq_some_iff.1 hlast
    rw [List.dropLast_concat, trim_append_singleton (by decide)]
  · rfl

end Text

end GoPlanner
