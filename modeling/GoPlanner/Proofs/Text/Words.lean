import GoPlanner.Proofs.Text.Lines

/-!
# Words and Blanks

Blanks divide a text into words. Those at the ends of a text do not matter for its words, and a text
whose leading blanks are taken away starts with its first word.

## Main results

* `Text.words_append_cons`: a blank divides the words of a text.
* `Text.exists_of_words_eq_cons`: the first word of a text.
* `Text.exists_trim_append`: trimming a text that starts with something else than blanks.
-/

namespace GoPlanner

namespace Text

variable {b c : Char} {cs ds w : List Char} {ws : List (List Char)}

@[simp] theorem words_nil : words [] = [] := by
  simp [words]

/-- **A blank divides** the words of a text. -/
theorem words_append_cons (hb : isBlank b = true) (cs ds : List Char) :
    words (cs ++ b :: ds) = words cs ++ words ds := by
  rw [words, words, words, List.splitOnP_append_cons cs ds hb, List.filter_append]

/-- A blank in front does not matter. -/
theorem words_cons (hb : isBlank b = true) (cs : List Char) : words (b :: cs) = words cs := by
  have hdivide := words_append_cons hb [] cs
  rwa [List.nil_append, words_nil, List.nil_append] at hdivide

/-- **Blanks at the end** do not matter. -/
theorem words_append_of_isBlank (hds : ∀ c ∈ ds, isBlank c = true) (cs : List Char) :
    words (cs ++ ds) = words cs := by
  induction ds generalizing cs with
  | nil => rw [List.append_nil]
  | cons b ds ih =>
      obtain ⟨hb, hds⟩ := List.forall_mem_cons.1 hds
      have hblanks : words ds = [] := by simpa using ih hds []
      rw [words_append_cons hb, hblanks, List.append_nil]

/-- Characters that are no blanks are one word. -/
theorem words_eq_singleton (hw : w ≠ []) (hword : ∀ c ∈ w, isBlank c = false) :
    words w = [w] := by
  rw [words, List.splitOnP_eq_singleton hword]
  simp [hw]

/-- **The first word** is what a text starts with when its leading blanks are taken away, and the
other words are those behind it. -/
theorem exists_of_words_eq_cons (h : words cs = w :: ws) :
    ∃ rest, trimStart cs = w ++ rest ∧ words rest = ws := by
  induction cs with
  | nil => simp at h
  | cons c cs ih =>
      by_cases hc : isBlank c = true
      · rw [words_cons hc] at h
        obtain ⟨rest, hstart, hrest⟩ := ih h
        exact ⟨rest, by rw [trimStart, List.dropWhile_cons_of_pos hc, ← trimStart, hstart], hrest⟩
      · -- The text starts with a word, which goes on up to the next blank or to the end.
        have hstart : trimStart (c :: cs) = c :: cs := List.dropWhile_cons_of_neg hc
        obtain ⟨first, rest, hsplit, hfirst, hrest⟩ : ∃ first rest, c :: cs = first ++ rest ∧
            (∀ d ∈ first, isBlank d = false) ∧ ∀ d ∈ rest.head?, isBlank d = true := by
          refine ⟨(c :: cs).takeWhile (!isBlank ·), (c :: cs).dropWhile (!isBlank ·),
            List.takeWhile_append_dropWhile.symm, fun d hd => ?_, fun d hd => ?_⟩
          · simpa using List.mem_takeWhile_imp hd
          · have hhead := List.head?_dropWhile_not (!isBlank ·) (c :: cs)
            rw [Option.mem_def.1 hd] at hhead
            simpa using hhead
        have hne : first ≠ [] := by
          rintro rfl
          rw [List.nil_append] at hsplit
          exact hc (hrest c (by simp [← hsplit]))
        rw [hsplit] at h
        refine ⟨rest, ?_⟩
        rw [hstart, hsplit]
        cases rest with
        | nil =>
            rw [List.append_nil, words_eq_singleton hne hfirst] at h
            obtain ⟨rfl, rfl⟩ := List.cons.inj h
            exact ⟨rfl, words_nil⟩
        | cons b rest =>
            have hb := hrest b (by simp)
            rw [words_append_cons hb, words_eq_singleton hne hfirst, List.singleton_append] at h
            obtain ⟨rfl, rfl⟩ := List.cons.inj h
            exact ⟨rfl, words_cons hb rest⟩

/-- **Trimming** keeps a beginning without blanks, and takes away blanks at the end only. -/
theorem exists_trim_append (hw : ∀ c ∈ w, isBlank c = false) (hne : w ≠ []) (cs : List Char) :
    ∃ rest back, trim (w ++ cs) = w ++ rest ∧ cs = rest ++ back ∧ ∀ c ∈ back, isBlank c = true := by
  obtain ⟨front, back, heq, hfront, hback⟩ := exists_trim_eq (w ++ cs)
  obtain ⟨c, w', rfl⟩ := List.exists_cons_of_ne_nil hne
  have hc := hw c List.mem_cons_self
  cases front with
  | cons b front =>
      obtain ⟨rfl, -⟩ := List.cons.inj heq
      rw [hfront c List.mem_cons_self] at hc
      cases hc
  | nil =>
      rw [List.nil_append] at heq
      generalize trim (c :: w' ++ cs) = trimmed at heq ⊢
      rcases List.append_eq_append_iff.1 heq with ⟨rest, htrim, hcs⟩ | ⟨rest, hword, hback'⟩
      · exact ⟨rest, back, htrim, hcs, hback⟩
      · -- What is taken away cannot reach into the beginning.
        have hrest : rest = [] := by
          refine List.eq_nil_iff_forall_not_mem.2 fun d hd => ?_
          have hblank := hback d (hback' ▸ List.mem_append_left cs hd)
          rw [hw d (hword ▸ List.mem_append_right trimmed hd)] at hblank
          cases hblank
        subst hrest
        rw [List.append_nil] at hword
        exact ⟨[], back, by rw [hword, List.append_nil], hback'.symm, hback⟩

end Text

end GoPlanner
