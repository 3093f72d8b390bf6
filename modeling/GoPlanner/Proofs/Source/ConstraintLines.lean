import GoPlanner.Proofs.Source.Leading

/-!
# Which Lines Constrain a File

The reader of constraint lines goes through a file once, with flags and a list of lines that may yet
count. What it finds can be said without it, of the text alone. A constraint line is one that stands
where a lexeme of the header could start: skipping trivia over all lines before it comes to their
end. A legacy line counts if a blank line stands behind it, and no line up to there is anything but
blank or a line comment.

## Main definitions

* `Leading.IsOpen`: where a lexeme could start.
* `Leading.Counts`: a blank line stands further on, and only blank lines and comments before it.
* `Leading.goBuildLines`, `Leading.plusBuildLines`: the lines that constrain a text.

## Main results

* `Leading.read_eq_completed`: what is found from any line on.
* `Leading.scanConstraints_eq_found`: what is found in a file.
-/

namespace GoPlanner

namespace Leading

variable {f : Found} {k n : Nat} {cs raw : List Char} {ls later : List (List Char)}

/-! ### The lines that constrain a text -/

/-- The lines of a text, trimmed, with numbers from the given one on. -/
def numbered (k : Nat) (ls : List (List Char)) : List ConstraintLine :=
  (ls.zipIdx k).map fun p => ⟨p.2, String.ofList (Text.trim p.1)⟩

/-- **A line is open** if skipping trivia consumes all the lines before it. -/
def IsOpen (cs : List Char) (n : Nat) : Prop :=
  ∃ line, skipTrivia (Text.firstLines (n - 1) cs) 1 = .ok ⟨[], line⟩

/-- A line that is blank, or starts as a line comment. -/
def IsRemark (l : List Char) : Prop :=
  Text.trim l = [] ∨ "//".toList <+: Text.trim l

/-- **A line counts** if a blank line stands behind it, and all lines up to that one are blank or
start as line comments. Lines are counted from 1. -/
def Counts (ls : List (List Char)) (n : Nat) : Prop :=
  ∃ m < ls.length, n < m + 1 ∧ Text.trim (ls.getD m []) = [] ∧ ∀ l ∈ ls.take m, IsRemark l

instance (l : List Char) : Decidable (IsRemark l) :=
  inferInstanceAs (Decidable (Text.trim l = [] ∨ "//".toList <+: Text.trim l))

instance (ls : List (List Char)) (n : Nat) : Decidable (Counts ls n) :=
  inferInstanceAs (Decidable (∃ m < ls.length, n < m + 1 ∧ Text.trim (ls.getD m []) = [] ∧
    ∀ l ∈ ls.take m, IsRemark l))

/-- Before a line skipping trivia is outside comments, and has met no other text. -/
theorem isOpen_iff : IsOpen cs n ↔
    ((Text.lines cs).take (n - 1)).foldl State.next .outside = .outside := by
  rw [← classify_firstLines _ _ 1, IsOpen]
  cases skipTrivia (Text.firstLines (n - 1) cs) 1 with
  | error e => simp [classify]
  | ok p =>
      obtain ⟨rest, line⟩ := p
      simp [classify]

instance (cs : List Char) (n : Nat) : Decidable (IsOpen cs n) :=
  decidable_of_iff _ isOpen_iff.symm

/-- **The constraint lines** of a text: open lines with the mark. -/
def goBuildLines (cs : List Char) : List ConstraintLine :=
  (numbered 1 (Text.lines cs)).filter fun l => IsOpen cs l.line && isGoBuild l.text

/-- **The legacy lines that count.** -/
def plusBuildLines (cs : List Char) : List ConstraintLine :=
  (numbered 1 (Text.lines cs)).filter fun l => Counts (Text.lines cs) l.line && isPlusBuild l.text

/-- **What is found** when these are the constraint lines and the legacy lines: a second constraint
line is a fault. -/
def found (goBuild plusBuild : List ConstraintLine) : Except ScanError ConstraintLines :=
  match goBuild with
  | [] => .ok ⟨none, plusBuild⟩
  | [l] => .ok ⟨some l, plusBuild⟩
  | _ :: l :: _ => .error ⟨l.line, .repeatedConstraint⟩

/-! ### Numbered lines -/

theorem numbered_cons (k : Nat) (raw : List Char) (ls : List (List Char)) :
    numbered k (raw :: ls) = ⟨k, String.ofList (Text.trim raw)⟩ :: numbered (k + 1) ls :=
  rfl

theorem exists_of_mem_numbered {l : ConstraintLine} (h : l ∈ numbered k ls) :
    ∃ i, l.line = k + i := by
  obtain ⟨⟨raw, j⟩, hmem, rfl⟩ := List.mem_map.1 h
  exact ⟨j - k, by have := (List.mem_zipIdx hmem).1; simp; omega⟩

/-! ### Lines that count -/

theorem not_counts_nil (n : Nat) : ¬ Counts [] n := by
  rintro ⟨m, hm, -⟩
  exact absurd hm (Nat.not_lt_zero m)

/-- Behind the first line counts what counts without it, if that line is a remark. -/
theorem counts_cons_succ : Counts (raw :: ls) (n + 1) ↔ IsRemark raw ∧ Counts ls n := by
  constructor
  · rintro ⟨m, hm, hn, hblank, hremarks⟩
    obtain ⟨m, rfl⟩ : ∃ j, m = j + 1 := ⟨m - 1, by omega⟩
    obtain ⟨hraw, hremarks⟩ := List.forall_mem_cons.1 hremarks
    exact ⟨hraw, m, Nat.lt_of_succ_lt_succ hm, Nat.lt_of_succ_lt_succ hn, hblank, hremarks⟩
  · rintro ⟨hraw, m, hm, hn, hblank, hremarks⟩
    exact ⟨m + 1, Nat.succ_lt_succ hm, Nat.succ_lt_succ hn, hblank,
      List.forall_mem_cons.2 ⟨hraw, hremarks⟩⟩

/-- What stands before the first line counts if that line is blank. -/
theorem counts_cons_zero : Counts (raw :: ls) 0 ↔
    Text.trim raw = [] ∨ IsRemark raw ∧ Counts ls 0 := by
  constructor
  · rintro ⟨m, hm, -, hblank, hremarks⟩
    cases m with
    | zero => exact Or.inl hblank
    | succ m =>
        obtain ⟨hraw, hremarks⟩ := List.forall_mem_cons.1 hremarks
        exact Or.inr ⟨hraw, m, Nat.lt_of_succ_lt_succ hm, Nat.succ_pos m, hblank, hremarks⟩
  · rintro (hblank | ⟨hraw, m, hm, -, hblank, hremarks⟩)
    · exact ⟨0, Nat.succ_pos _, Nat.one_pos, hblank, by simp⟩
    · exact ⟨m + 1, Nat.succ_lt_succ hm, Nat.succ_pos _, hblank,
        List.forall_mem_cons.2 ⟨hraw, hremarks⟩⟩

/-! ### One line -/

theorem isGoBuild_empty : isGoBuild "" = false := by
  decide

theorem isPlusBuild_empty : isPlusBuild "" = false := by
  decide

/-- What has been found with one more line that does not end the leading part. -/
def Found.add (f : Found) (number : Nat) (raw : List Char) (inside : Bool) : Found :=
  let l : ConstraintLine := ⟨number, String.ofList (Text.trim raw)⟩
  { inside
    ended := f.ended || !"//".toList.isPrefixOf (Text.trim raw)
    goBuild := if !f.inside && isGoBuild l.text then some l else f.goBuild
    pending := if isPlusBuild l.text then f.pending ++ [l] else f.pending
    plusBuild := f.plusBuild }

/-- What has been found with a blank line among remarks, which lets the lines before it count. -/
def Found.settle (f : Found) : Found :=
  { f with pending := [], plusBuild := f.plusBuild ++ f.pending }

/-- A blank line among remarks settles what is pending. -/
theorem read_blank (hblank : Text.trim raw = []) (hended : f.ended = false) :
    read f k (raw :: later) = read f.settle (k + 1) later := by
  rw [read]
  simp [hblank, hended, Found.settle]

/-- A second constraint line is a fault. -/
theorem read_repeated (h : ¬ (Text.trim raw = [] ∧ f.ended = false)) (hinside : f.inside = false)
    (hgo : isGoBuild (String.ofList (Text.trim raw)) = true) (hsome : f.goBuild.isSome = true) :
    read f k (raw :: later) = .error ⟨k, .repeatedConstraint⟩ := by
  rw [read]
  simp_all

/-- **Any other line** is added to what has been found. -/
theorem read_other (h : ¬ (Text.trim raw = [] ∧ f.ended = false))
    (hgo : ¬ (f.inside = false ∧ isGoBuild (String.ofList (Text.trim raw)) = true ∧
      f.goBuild.isSome = true)) :
    read f k (raw :: later) =
      match (start f.inside).next raw with
      | .over => .ok (f.add k raw f.inside).result
      | .outside => read (f.add k raw false) (k + 1) later
      | .inside => read (f.add k raw true) (k + 1) later := by
  have hnext : (start f.inside).next raw = afterComments f.inside (Text.trim raw) := by
    cases f.inside <;> rfl
  rw [read, hnext]
  simp only
  rw [if_neg (by simpa using h), if_neg (by simpa using hgo)]
  rfl

/-- A line that is no remark ends the counting of legacy lines. -/
theorem ended_add (h : ¬ (Text.trim raw = [] ∧ f.ended = false)) (inside : Bool) :
    (f.add k raw inside).ended = false ↔ f.ended = false ∧ IsRemark raw := by
  simp only [Found.add, IsRemark, Bool.or_eq_false_iff, Bool.not_eq_false',
    List.isPrefixOf_iff_prefix]
  constructor
  · rintro ⟨hended, hslashes⟩
    exact ⟨hended, Or.inr hslashes⟩
  · rintro ⟨hended, hblank | hslashes⟩
    · exact absurd ⟨hblank, hended⟩ h
    · exact ⟨hended, hslashes⟩

/-- A line that opens a comment or is other text ends it too. -/
theorem ended_add_of_next (hinside : f.inside = true → f.ended = true)
    (hnext : (start f.inside).next raw ≠ .outside) (inside : Bool) :
    (f.add k raw inside).ended = true := by
  cases hf : f.inside with
  | true => simp [Found.add, hinside hf]
  | false =>
      have hslashes : "//".toList.isPrefixOf (Text.trim raw) = false := by
        by_contra hslashes
        rw [Bool.not_eq_false, List.isPrefixOf_iff_prefix] at hslashes
        obtain ⟨rest, hrest⟩ := hslashes
        refine hnext ?_
        rw [hf, start, if_neg Bool.false_ne_true, State.next, ← hrest, afterComments.eq_def]
        rfl
      simp only [Found.add, hslashes, Bool.not_false, Bool.or_true]

/-! ### All lines -/

/-- The pending lines that the lines to come let count. -/
def Found.kept (f : Found) (ls : List (List Char)) : List ConstraintLine :=
  if f.ended = false ∧ Counts ls 0 then f.pending else []

/-- **What is found in the end:** what has been found, and the lines to come that are open or
count. -/
def Found.completed (f : Found) (opens counts : Nat → Bool) (k : Nat) (ls : List (List Char)) :
    Except ScanError ConstraintLines :=
  found
    (f.goBuild.toList ++ (numbered k ls).filter fun l => opens l.line && isGoBuild l.text)
    (f.plusBuild ++ (f.kept ls ++
      (numbered k ls).filter fun l => counts l.line && isPlusBuild l.text))

variable {opens counts : Nat → Bool}

theorem filter_numbered_eq_nil {p : Nat → Bool} {q : String → Bool}
    (h : ∀ i, p (k + i) = false) :
    (numbered k ls).filter (fun l => p l.line && q l.text) = [] := by
  rw [List.filter_eq_nil_iff]
  intro l hl
  obtain ⟨i, hi⟩ := exists_of_mem_numbered hl
  simp [hi, h]

/-- Where no line to come matters, what has been found is all. -/
theorem completed_eq_result
    (hopens : (numbered k ls).filter (fun l => opens l.line && isGoBuild l.text) = [])
    (hcounts : (numbered k ls).filter (fun l => counts l.line && isPlusBuild l.text) = [])
    (hkept : f.kept ls = []) : f.completed opens counts k ls = .ok f.result := by
  rw [Found.completed, hopens, hcounts, hkept, List.append_nil, List.append_nil, List.append_nil]
  cases hgo : f.goBuild <;> simp [found, Found.result, hgo]

/-- **A blank line among remarks** lets all pending lines count. -/
theorem completed_blank (hblank : Text.trim raw = []) (hended : f.ended = false) :
    f.completed opens counts k (raw :: later) = f.settle.completed opens counts (k + 1) later := by
  have hkept : f.kept (raw :: later) = f.pending :=
    if_pos ⟨hended, counts_cons_zero.2 (Or.inl hblank)⟩
  have hsettle : f.settle.kept later = [] := ite_self []
  rw [Found.completed, Found.completed, numbered_cons,
    List.filter_cons_of_neg (by simp [hblank, isGoBuild_empty]),
    List.filter_cons_of_neg (by simp [hblank, isPlusBuild_empty]), hkept, hsettle]
  simp [Found.settle]

/-- **Any other line** is added to what has been found. -/
theorem completed_other (h : ¬ (Text.trim raw = [] ∧ f.ended = false))
    (hgo : ¬ (f.inside = false ∧ isGoBuild (String.ofList (Text.trim raw)) = true ∧
      f.goBuild.isSome = true))
    (hopens : opens k = !f.inside)
    (hcounts : counts k = true ↔ f.ended = false ∧ Counts (raw :: later) 1) (inside : Bool) :
    f.completed opens counts k (raw :: later) =
      (f.add k raw inside).completed opens counts (k + 1) later := by
  have hcount : counts k = true ↔ (f.add k raw inside).ended = false ∧ Counts later 0 := by
    rw [hcounts, counts_cons_succ, ended_add h, and_assoc]
  have hkept : f.ended = false ∧ Counts (raw :: later) 0 ↔
      (f.add k raw inside).ended = false ∧ Counts later 0 := by
    rw [counts_cons_zero, ended_add h, and_assoc]
    exact and_congr_right fun hended => or_iff_right fun hblank => h ⟨hblank, hended⟩
  have hgoBuild : f.goBuild.toList ++
      (numbered k (raw :: later)).filter (fun l => opens l.line && isGoBuild l.text) =
        (f.add k raw inside).goBuild.toList ++
          (numbered (k + 1) later).filter (fun l => opens l.line && isGoBuild l.text) := by
    rw [numbered_cons, List.filter_cons]
    by_cases hmark : (!f.inside && isGoBuild (String.ofList (Text.trim raw))) = true
    · have hnone : f.goBuild = none := by simp_all
      simp [Found.add, hopens, hmark, hnone]
    · simp [Found.add, hopens, hmark]
  have hplusBuild : f.kept (raw :: later) ++
      (numbered k (raw :: later)).filter (fun l => counts l.line && isPlusBuild l.text) =
        (f.add k raw inside).kept later ++
          (numbered (k + 1) later).filter (fun l => counts l.line && isPlusBuild l.text) := by
    rw [numbered_cons, List.filter_cons, Found.kept, Found.kept]
    simp only [hkept]
    by_cases hq : (f.add k raw inside).ended = false ∧ Counts later 0
    · rw [if_pos hq, if_pos hq, hcount.2 hq]
      by_cases hplus : isPlusBuild (String.ofList (Text.trim raw)) = true <;>
        simp [Found.add, hplus]
    · rw [if_neg hq, if_neg hq, Bool.eq_false_iff.2 (mt hcount.1 hq)]
      simp
  rw [Found.completed, hgoBuild, hplusBuild]
  rfl

/-- **What is found from any line on.** The induction is on the lines. It carries that inside a
block comment no legacy line counts any more, and that the numbers of the lines to come are open and
count as these lines say. -/
theorem read_eq_completed (ls : List (List Char)) (hinside : f.inside = true → f.ended = true)
    (hopens : ∀ i, opens (k + i) = true ↔
      (ls.take i).foldl State.next (start f.inside) = .outside)
    (hcounts : ∀ i, counts (k + i) = true ↔ f.ended = false ∧ Counts ls (i + 1)) :
    read f k ls = f.completed opens counts k ls := by
  induction ls generalizing f k with
  | nil => exact (completed_eq_result rfl rfl (if_neg fun h => not_counts_nil 0 h.2)).symm
  | cons raw later ih =>
      have hopen : opens k = !f.inside := by
        rw [Bool.eq_iff_iff, ← Nat.add_zero k, hopens 0]
        cases f.inside <;> simp [start]
      have hopens' (i : Nat) : opens (k + 1 + i) = true ↔
          (later.take i).foldl State.next ((start f.inside).next raw) = .outside := by
        rw [Nat.add_right_comm, Nat.add_assoc, hopens (i + 1), List.take_succ_cons, List.foldl_cons]
      have hcount : counts k = true ↔ f.ended = false ∧ Counts (raw :: later) 1 := hcounts 0
      have hcounts' (i : Nat) : counts (k + 1 + i) = true ↔
          f.ended = false ∧ IsRemark raw ∧ Counts later (i + 1) := by
        rw [Nat.add_right_comm, Nat.add_assoc, hcounts (i + 1), counts_cons_succ]
      by_cases hblank : Text.trim raw = [] ∧ f.ended = false
      · obtain ⟨hraw, hended⟩ := hblank
        have hnext : (start f.inside).next raw = start f.inside := by
          cases f.inside <;> simp [start, State.next, hraw, afterComments]
        rw [read_blank hraw hended, completed_blank hraw hended]
        exact ih hinside (fun i => by rw [hopens', hnext]; rfl)
          (fun i => by rw [hcounts', and_iff_right (show IsRemark raw from Or.inl hraw)]; rfl)
      by_cases hgo : f.inside = false ∧ isGoBuild (String.ofList (Text.trim raw)) = true ∧
          f.goBuild.isSome = true
      · obtain ⟨hin, hmark, hsome⟩ := hgo
        obtain ⟨g, hg⟩ := Option.isSome_iff_exists.1 hsome
        rw [read_repeated hblank hin hmark hsome, Found.completed, hg, numbered_cons,
          List.filter_cons_of_pos (by simp [hopen, hin, hmark])]
        rfl
      have hcountsAdd (inside : Bool) (i : Nat) : counts (k + 1 + i) = true ↔
          (f.add k raw inside).ended = false ∧ Counts later (i + 1) := by
        rw [hcounts', ended_add hblank, and_assoc]
      rw [read_other hblank hgo]
      cases hnext : (start f.inside).next raw with
      | outside =>
          rw [completed_other hblank hgo hopen hcount false]
          exact ih Bool.noConfusion (fun i => by rw [hopens', hnext]; rfl) (hcountsAdd false)
      | inside =>
          have hended := ended_add_of_next (k := k) hinside (by rw [hnext]; simp) true
          rw [completed_other hblank hgo hopen hcount true]
          exact ih (fun _ => hended) (fun i => by rw [hopens', hnext]; rfl) (hcountsAdd true)
      | _ =>
          have hended := ended_add_of_next (k := k) hinside (by rw [hnext]; simp) f.inside
          -- behind other text no line is open, and no line counts
          have hopenOver (i : Nat) : opens (k + 1 + i) = false := by
            rw [Bool.eq_false_iff, Ne, hopens', hnext, foldl_next_over]
            simp
          have hcountOver (i : Nat) : counts (k + 1 + i) = false := by
            rw [Bool.eq_false_iff, Ne, hcountsAdd f.inside, hended]
            simp
          rw [completed_other hblank hgo hopen hcount f.inside,
            completed_eq_result (filter_numbered_eq_nil hopenOver)
              (filter_numbered_eq_nil hcountOver) (if_neg (by simp [hended]))]

/-! ### The whole text -/

/-- **What constrains a file** is its one open line with the mark, and its legacy lines that
count. A second open line with the mark is a fault. -/
theorem scanConstraints_eq_found (src : String) :
    scanConstraints src =
      found (goBuildLines (Text.dropByteOrderMark src.toList))
        (plusBuildLines (Text.dropByteOrderMark src.toList)) := by
  generalize hcs : Text.dropByteOrderMark src.toList = cs
  have hopens (i : Nat) : decide (IsOpen cs (1 + i)) = true ↔
      ((Text.lines cs).take i).foldl State.next (start false) = .outside := by
    rw [decide_eq_true_iff, isOpen_iff, Nat.add_sub_cancel_left]
    rfl
  have hcounts (i : Nat) : decide (Counts (Text.lines cs) (1 + i)) = true ↔
      false = false ∧ Counts (Text.lines cs) (i + 1) := by
    rw [decide_eq_true_iff, Nat.add_comm, and_iff_right rfl]
  have hread : read ⟨false, false, none, [], []⟩ 1 (Text.lines cs) =
      Found.completed ⟨false, false, none, [], []⟩ (fun n => decide (IsOpen cs n))
        (fun n => decide (Counts (Text.lines cs) n)) 1 (Text.lines cs) :=
    read_eq_completed _ Bool.noConfusion hopens hcounts
  rw [scanConstraints, hcs, hread, Found.completed, Found.kept, ite_self]
  rfl

end Leading

end GoPlanner
