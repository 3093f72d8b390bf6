import GoPlanner.Source.ConstraintLines
import GoPlanner.Proofs.Text.Lines
import Mathlib.Data.List.Induction

/-!
# The Leading Part, by Lines and by Characters

Two readers decide how far the leading part of a file goes. The reader of headers skips trivia, one
character after the other. The reader of constraint lines takes one trimmed line after the other, and
keeps in mind whether a block comment is open. Both agree: after any text they are outside comments,
inside one, or have met other text, and it is the same for both.

The proof goes through a third reader, `Leading.stateAfter`, which knows of characters only and does
not count lines.

## Main definitions

* `Leading.stateAfter`: the state that a text leaves, read by characters.
* `Leading.State.next`: the state that one more line leaves.
* `Leading.classify`: the state that the result of skipping trivia shows.

## Main results

* `Leading.classify_skipTrivia`: skipping trivia leaves this state.
* `Leading.stateAfter_eq_foldl`: so does reading line by line.
* `Leading.classify_firstLines`: the two readers agree before every line.
-/

namespace GoPlanner

namespace Leading

variable {c : Char} {cs l rest : List Char}

/-! ### The state by characters -/

/-- **The state that a text leaves,** from outside or inside a block comment on. -/
def stateAfter : Bool → List Char → State
  | true, '*' :: '/' :: cs => stateAfter false cs
  | true, _ :: cs => stateAfter true cs
  | true, [] => .inside
  | false, '/' :: '/' :: cs => stateAfter false (skipLineComment cs)
  | false, '/' :: '*' :: cs => stateAfter true cs
  | false, c :: cs => if isBlank c then stateAfter false cs else .over
  | false, [] => .outside
termination_by _ cs => cs.length
decreasing_by
  all_goals simp only [List.length_cons]
  all_goals first
    | omega
    | exact Nat.lt_of_le_of_lt (List.dropWhile_suffix _).length_le (by omega)

/-- The state at the start of a line. -/
def start (inside : Bool) : State :=
  if inside then .inside else .outside

/-- **The state goes on** with further text. Other text ends the leading part for good. -/
def State.andThen : State → List Char → State
  | .over, _ => .over
  | outside, cs => stateAfter false cs
  | inside, cs => stateAfter true cs

/-- **The state that one more line leaves.** -/
def State.next : State → List Char → State
  | .over, _ => .over
  | outside, l => afterComments false (Text.trim l)
  | inside, l => afterComments true (Text.trim l)

/-- The state that the result of skipping trivia shows: a comment is open, all is skipped, or other
text has been met. -/
def classify : Except ScanError Cursor → State
  | .error _ => .inside
  | .ok p => if p.rest = [] then .outside else .over

theorem stateAfter_nil (inside : Bool) : stateAfter inside [] = start inside := by
  cases inside <;> simp [stateAfter, start]

/-! ### Skipping trivia -/

/-- The end of a block comment decides where reading goes on. -/
theorem stateAfter_true (cs : List Char) (line : Nat) :
    stateAfter true cs =
      match skipBlockComment cs line with
      | some p => stateAfter false p.rest
      | none => .inside := by
  fun_induction skipBlockComment cs line with
  | case1 cs line => rw [stateAfter]
  | case2 line c cs hopen ih => rw [stateAfter.eq_2 _ _ hopen, ih]
  | case3 => rw [stateAfter]

/-- **Skipping trivia** leaves the state that the text leaves. -/
theorem classify_skipTrivia (cs : List Char) (line : Nat) :
    classify (skipTrivia cs line) = stateAfter false cs := by
  fun_induction skipTrivia cs line with
  | case1 line rest ih => rw [ih, stateAfter]
  | case2 line rest p hp ih => rw [ih, stateAfter, stateAfter_true _ line, hp]
  | case3 line rest hp => rw [stateAfter, stateAfter_true _ line, hp]; rfl
  | case4 line c rest hline hblock hc ih => rw [ih, stateAfter.eq_6 _ _ hline hblock, if_pos hc]
  | case5 line c rest hline hblock hc =>
      rw [stateAfter.eq_6 _ _ hline hblock, if_neg hc]
      rfl
  | case6 => rw [stateAfter]; rfl

/-! ### Blanks and line feeds -/

theorem andThen_nil (s : State) : s.andThen [] = s := by
  cases s <;> simp [State.andThen, stateAfter]

/-- Blanks in front do not matter. -/
theorem stateAfter_cons_of_isBlank (hc : isBlank c = true) (inside : Bool) (cs : List Char) :
    stateAfter inside (c :: cs) = stateAfter inside cs := by
  have hstar : c ≠ '*' := by
    rintro rfl
    cases hc
  have hslash : c ≠ '/' := by
    rintro rfl
    cases hc
  cases inside with
  | true => rw [stateAfter.eq_2 _ _ (fun _ h => absurd h hstar)]
  | false =>
      rw [stateAfter.eq_6 _ _ (fun _ h => absurd h hslash) (fun _ h => absurd h hslash), if_pos hc]

/-- A line comment is the rest of its line. -/
theorem skipLineComment_of_notMem (hl : '\n' ∉ l) : skipLineComment l = [] := by
  rw [skipLineComment, List.dropWhile_eq_nil_iff]
  exact fun _ hd => bne_of_notMem hl hd

/-- Behind a line comment reading goes on outside block comments. -/
theorem stateAfter_skipLineComment (hl : '\n' ∉ l) (h : c = '\n' ∨ rest = []) :
    stateAfter false (skipLineComment (l ++ c :: rest)) = stateAfter false rest := by
  rw [skipLineComment, List.dropWhile_append_of_pos fun _ hd => bne_of_notMem hl hd]
  by_cases hc : c = '\n'
  · subst hc
    exact stateAfter_cons_of_isBlank (by decide) false rest
  · obtain rfl := h.resolve_left hc
    simp [hc]

theorem exists_eq_cons {d : Char} (hne : c ≠ d) (h : l ++ c :: rest = d :: cs) :
    ∃ l', l = d :: l' := by
  cases l with
  | nil => exact absurd (List.cons.inj h).1 hne
  | cons e l => exact ⟨l, by rw [(List.cons.inj h).1]⟩

/-- **Behind a line** reading goes on from the state that the line leaves. At the end of the text
any blank may stand in for the line feed. -/
theorem stateAfter_append (hl : '\n' ∉ l) (hc : isBlank c = true) (h : c = '\n' ∨ rest = [])
    (inside : Bool) :
    stateAfter inside (l ++ c :: rest) = (stateAfter inside l).andThen rest := by
  have hslash : c ≠ '/' := by
    rintro rfl
    cases hc
  have hstar : c ≠ '*' := by
    rintro rfl
    cases hc
  fun_induction stateAfter inside l with
  | case1 l ih =>
      rw [List.cons_append, List.cons_append, stateAfter]
      exact ih (by simp_all)
  | case2 d l hopen ih =>
      -- the comment does not close with the character behind the line
      have hopen' : ∀ cs, d = '*' → l ++ c :: rest = '/' :: cs → False := by
        intro cs hd heq
        obtain ⟨l', hl'⟩ := exists_eq_cons hslash heq
        exact hopen l' hd hl'
      rw [List.cons_append, stateAfter.eq_2 _ _ hopen']
      exact ih (by simp_all)
  | case3 => exact stateAfter_cons_of_isBlank hc true rest
  | case4 l _ =>
      have hl' : '\n' ∉ l := by simp_all
      rw [List.cons_append, List.cons_append, stateAfter, stateAfter_skipLineComment hl' h,
        skipLineComment_of_notMem hl', stateAfter_nil]
      rfl
  | case5 l ih =>
      rw [List.cons_append, List.cons_append, stateAfter]
      exact ih (by simp_all)
  | case6 d l hline hblock hd ih =>
      rw [List.cons_append, stateAfter_cons_of_isBlank hd]
      exact ih (by simp_all)
  | case7 d l hline hblock hd =>
      have hline' : ∀ cs, d = '/' → l ++ c :: rest = '/' :: cs → False := by
        intro cs hd' heq
        obtain ⟨l', hl'⟩ := exists_eq_cons hslash heq
        exact hline l' hd' hl'
      have hblock' : ∀ cs, d = '/' → l ++ c :: rest = '*' :: cs → False := by
        intro cs hd' heq
        obtain ⟨l', hl'⟩ := exists_eq_cons hstar heq
        exact hblock l' hd' hl'
      rw [List.cons_append, stateAfter.eq_6 _ _ hline' hblock', if_neg hd]
      rfl
  | case8 => exact stateAfter_cons_of_isBlank hc false rest

/-- Blanks at the end of a line do not matter. -/
theorem stateAfter_append_blanks {back : List Char} (hl : '\n' ∉ l ++ back)
    (hback : ∀ c ∈ back, isBlank c = true) (inside : Bool) :
    stateAfter inside (l ++ back) = stateAfter inside l := by
  induction back using List.reverseRecOn with
  | nil => rw [List.append_nil]
  | append_singleton back c ih =>
      rw [← List.append_assoc] at hl ⊢
      have hl' : '\n' ∉ l ++ back := fun h => hl (List.mem_append_left _ h)
      rw [stateAfter_append hl' (hback c (by simp)) (Or.inr rfl), andThen_nil]
      exact ih hl' fun d hd => hback d (List.mem_append_left _ hd)

/-- **Trimming a line** does not change the state it leaves. -/
theorem stateAfter_trim (hl : '\n' ∉ l) (inside : Bool) :
    stateAfter inside (Text.trim l) = stateAfter inside l := by
  obtain ⟨front, back, heq, hfront, hback⟩ := Text.exists_trim_eq l
  have hfronts (cs : List Char) : stateAfter inside (front ++ cs) = stateAfter inside cs := by
    clear heq
    induction front with
    | nil => rfl
    | cons c front ih =>
        obtain ⟨hc, hfront⟩ := List.forall_mem_cons.1 hfront
        rw [List.cons_append, stateAfter_cons_of_isBlank hc, ih hfront]
  have hl' : '\n' ∉ Text.trim l ++ back := fun h => hl (heq ▸ List.mem_append_right _ h)
  have hstate := congrArg (stateAfter inside) heq
  rw [hfronts, stateAfter_append_blanks hl' hback] at hstate
  exact hstate.symm

/-! ### The state by lines -/

/-- The end of a block comment in a line. -/
theorem stateAfter_true_eq_closing? (cs : List Char) :
    stateAfter true cs =
      match closing? cs with
      | some rest => stateAfter false rest
      | none => .inside := by
  fun_induction closing? cs with
  | case1 cs => rw [stateAfter]
  | case2 c cs hopen ih => rw [stateAfter.eq_2 _ _ hopen, ih]
  | case3 => rw [stateAfter]

theorem mem_of_mem_closing? (h : closing? cs = some rest) (hc : c ∈ rest) : c ∈ cs := by
  fun_induction closing? cs with
  | case1 cs =>
      obtain rfl := Option.some.inj h
      exact List.mem_cons_of_mem _ (List.mem_cons_of_mem _ hc)
  | case2 d cs _ ih => exact List.mem_cons_of_mem d (ih h)
  | case3 => cases h

/-- **The comments of a line** leave the state that its characters leave. -/
theorem afterComments_eq_stateAfter (hl : '\n' ∉ l) (hhead : ∀ c ∈ l.head?, isBlank c = false)
    (inside : Bool) : afterComments inside l = stateAfter inside l := by
  have htrim {cs : List Char} (hcs : '\n' ∉ cs) : '\n' ∉ Text.trim cs :=
    fun h => hcs (Text.mem_of_mem_trim h)
  fun_induction afterComments inside l with
  | case1 => rw [stateAfter_nil]; rfl
  | case2 => simp_all [stateAfter_nil, start]
  | case3 l hne rest hclosing ih =>
      have hrest : '\n' ∉ rest := fun h => hl (mem_of_mem_closing? hclosing h)
      rw [ih (htrim hrest) (fun c hc => Text.isBlank_of_mem_head?_trim hc), stateAfter_trim hrest,
        stateAfter_true_eq_closing? l, hclosing]
  | case4 l hne hclosing =>
      rw [stateAfter_true_eq_closing? l, hclosing]
  | case5 inside houtside cs =>
      have hcs : '\n' ∉ cs := by simp_all
      rw [Bool.not_eq_true] at houtside
      rw [houtside, stateAfter, skipLineComment_of_notMem hcs, stateAfter_nil]
      rfl
  | case6 inside houtside rest _ ih =>
      have hrest : '\n' ∉ rest := by simp_all
      rw [Bool.not_eq_true] at houtside
      rw [houtside, ih (htrim hrest) (fun c hc => Text.isBlank_of_mem_head?_trim hc),
        stateAfter_trim hrest, stateAfter]
  | case7 inside l hne houtside hline hblock =>
      rw [Bool.not_eq_true] at houtside
      obtain ⟨c, cs, rfl⟩ := List.exists_cons_of_ne_nil hne
      have hc : isBlank c = false := hhead c rfl
      rw [houtside, stateAfter.eq_6 _ _ (fun cs hslash heq => hline cs (by rw [hslash, heq]))
        (fun cs hslash heq => hblock cs (by rw [hslash, heq])), if_neg (by simp [hc])]

/-- **A line read by characters** leaves the next state. -/
theorem next_start (hl : '\n' ∉ l) (inside : Bool) :
    (start inside).next l = stateAfter inside l := by
  have htrim : '\n' ∉ Text.trim l := fun h => hl (Text.mem_of_mem_trim h)
  have hline :=
    afterComments_eq_stateAfter htrim (fun c hc => Text.isBlank_of_mem_head?_trim hc) inside
  rw [← stateAfter_trim hl, ← hline]
  cases inside <;> rfl

theorem foldl_next_over (ls : List (List Char)) : ls.foldl State.next .over = .over := by
  induction ls with
  | nil => rfl
  | cons l ls ih => exact ih

theorem next_dropReturn (s : State) (l : List Char) : s.next (Text.dropReturn l) = s.next l := by
  cases s <;> simp only [State.next, Text.trim_dropReturn]

/-- **The two ways of reading agree:** characters leave the state that the lines leave. -/
theorem stateAfter_eq_foldl (inside : Bool) (cs : List Char) :
    stateAfter inside cs = (Text.lines cs).foldl State.next (start inside) := by
  induction cs using Text.lines_induction generalizing inside with
  | last l hl =>
      by_cases hne : l = []
      · rw [hne, stateAfter_nil, Text.lines_nil]
        rfl
      · rw [Text.lines_eq_singleton hl hne, List.foldl_cons, List.foldl_nil, next_start hl]
  | ended l cs hl ih =>
      rw [stateAfter_append hl (by decide) (Or.inl rfl), Text.lines_append_cons hl, List.foldl_cons,
        next_dropReturn, next_start hl]
      cases stateAfter inside l with
      | outside => exact ih false
      | inside => exact ih true
      | _ => exact (foldl_next_over _).symm

/-- **Before every line** skipping trivia and reading line by line are in the same state. -/
theorem classify_firstLines (n : Nat) (cs : List Char) (line : Nat) :
    classify (skipTrivia (Text.firstLines n cs) line) =
      ((Text.lines cs).take n).foldl State.next .outside := by
  rw [classify_skipTrivia, stateAfter_eq_foldl, Text.lines_firstLines]
  rfl

end Leading

end GoPlanner
