import GoPlanner.Proofs.Constraint.RoundTrip
import GoPlanner.Proofs.Text.Lines
import GoPlanner.Source.Selection
import Mathlib.Data.List.Forall2

/-!
# Legacy Lines as One Constraint Line

All legacy lines of a source text have to hold. Their conjunction, written as a constraint line
in front of a package clause, selects the file for the same targets.

## Main results

* `isProper_of_parsePlusBuild`: legacy lines are read as proper expressions.
* `Target.fitsPlusBuild_of_mapM`: what lines that can all be read select.
* `scanConstraints_goBuildLine`: the scanner finds a constraint line before a package clause.
* `Target.fitsConstraints_joined`: both forms select the same.
-/

namespace GoPlanner

namespace Constraint

/-! ### Expressions that are put together -/

/-- **A list of steps that can fail** succeeds if each step does. -/
theorem mapM_eq_ok_iff {α β ε : Type} {f : α → Except ε β} {xs : List α} {ys : List β} :
    xs.mapM f = .ok ys ↔ List.Forall₂ (fun x y => f x = .ok y) xs ys := by
  induction xs generalizing ys with
  | nil => cases ys <;> simp [pure, Except.pure]
  | cons x xs ih =>
      rw [List.mapM_cons]
      cases hx : f x with
      | error e => cases ys <;> simp [bind, Except.bind, hx]
      | ok y =>
          cases hxs : xs.mapM f with
          | error e => cases ys <;> simp [bind, Except.bind, ← ih, hx, hxs]
          | ok rest => cases ys <;> simp [bind, Except.bind, pure, Except.pure, ← ih, hx, hxs]

/-- What holds of the result of each step. -/
theorem of_mapM {α β ε : Type} {f : α → Except ε β} {p : β → Prop}
    (hf : ∀ x y, f x = .ok y → p y) {xs : List α} {ys : List β} (h : xs.mapM f = .ok ys) :
    ∀ y ∈ ys, p y := by
  have hsteps := mapM_eq_ok_iff.1 h
  clear h
  induction hsteps with
  | nil => simp
  | cons hx _ ih => exact List.forall_mem_cons.2 ⟨hf _ _ hx, ih⟩

/-- Joining proper expressions with an operator that keeps them proper. -/
theorem isProper_joined {operator : Constraint → Constraint → Constraint}
    (hop : ∀ a b, a.IsProper → b.IsProper → (operator a b).IsProper) {es : List Constraint}
    (hes : ∀ e ∈ es, e.IsProper) {whole : Constraint} (h : joined operator es = some whole) :
    whole.IsProper := by
  cases es with
  | nil => cases h
  | cons e es =>
      obtain rfl := Option.some.inj h
      clear h
      induction es generalizing e with
      | nil => exact hes e List.mem_cons_self
      | cons e' es ih =>
          obtain ⟨he, hes⟩ := List.forall_mem_cons.1 hes
          obtain ⟨he', hes⟩ := List.forall_mem_cons.1 hes
          exact ih (operator e e') (List.forall_mem_cons.2 ⟨hop e e' he he', hes⟩)

theorem isProper_joined_and {es : List Constraint} (hes : ∀ e ∈ es, e.IsProper)
    {whole : Constraint} (h : joined .and es = some whole) : whole.IsProper :=
  isProper_joined (fun _ _ ha hb => isProper_and.2 ⟨ha, hb⟩) hes h

/-- **A conjunction** holds if all its parts do. -/
theorem eval_joined_and {enabled : String → Bool} {es : List Constraint} {whole : Constraint}
    (h : joined .and es = some whole) : whole.eval enabled = es.all (·.eval enabled) := by
  cases es with
  | nil => cases h
  | cons e es =>
      obtain rfl := Option.some.inj h
      clear h
      induction es generalizing e with
      | nil => simp
      | cons e' es ih =>
          rw [List.foldl_cons, ih (and e e')]
          simp [eval, Bool.and_assoc]

/-! ### What legacy lines are read as -/

theorem isProper_of_ofTerm {term : List Char} {e : Constraint} (h : ofTerm term = .ok e) :
    e.IsProper := by
  rw [ofTerm.eq_def] at h
  split at h
  · split at h
    next hvalid =>
      obtain rfl := Except.ok.inj h
      exact isProper_not.2 (isProper_tag.2 hvalid)
    · cases h
  · split at h
    next hvalid =>
      obtain rfl := Except.ok.inj h
      exact isProper_tag.2 hvalid
    · cases h

theorem isProper_of_ofClause {clause : List Char} {e? : Option Constraint}
    (h : ofClause clause = .ok e?) : ∀ e ∈ e?, e.IsProper := by
  rw [ofClause] at h
  cases hterms : (clause.splitOn ',').mapM ofTerm with
  | error fault => simp [hterms, Except.map] at h
  | ok es =>
      rw [hterms] at h
      obtain rfl := Except.ok.inj h
      exact fun e he => isProper_joined_and (of_mapM (fun _ _ => isProper_of_ofTerm) hterms) he

theorem isProper_of_ofClauses {clauses : List (List Char)} {e : Constraint}
    (h : ofClauses clauses = .ok e) : e.IsProper := by
  rw [ofClauses] at h
  cases hclauses : clauses.mapM ofClause with
  | error fault => simp [hclauses, Except.map] at h
  | ok es =>
      rw [hclauses] at h
      obtain rfl := Except.ok.inj h
      dsimp only
      have hes : ∀ e ∈ es.filterMap id, e.IsProper := by
        intro e he
        obtain ⟨e?, he?, hsome⟩ := List.mem_filterMap.1 he
        exact of_mapM (fun _ _ => isProper_of_ofClause) hclauses e? he? e hsome
      cases hjoined : joined .or (es.filterMap id) with
      | none =>
          have hignore : isValidTag "ignore" = true := by decide
          exact isProper_tag.2 hignore
      | some whole =>
          exact isProper_joined (fun _ _ ha hb => isProper_or.2 ⟨ha, hb⟩) hes hjoined

end Constraint

open Constraint

/-- **Legacy lines** are read as expressions with valid tags. -/
theorem isProper_of_parsePlusBuild {line : String} {e : Constraint}
    (h : parsePlusBuild line = .ok e) : e.IsProper := by
  rw [parsePlusBuild] at h
  split at h
  · cases h
  · split at h
    · cases h
    · exact isProper_of_ofClauses h

/-- **Legacy lines that can all be read** select if all their expressions hold; the reading that
stops at the first one that does not hold comes to the same. -/
theorem Target.fitsPlusBuild_of_mapM {t : Target} {cs : List ConstraintLine}
    {es : List Constraint} (h : cs.mapM (fun c => parsePlusBuild c.text) = .ok es) :
    t.fitsPlusBuild cs = .ok (es.all (·.eval t.satisfies)) := by
  have hread := mapM_eq_ok_iff.1 h
  clear h
  induction hread with
  | nil => rfl
  | @cons c e cs es he _ ih =>
      rw [Target.fitsPlusBuild, he, List.all_cons]
      dsimp only
      cases e.eval t.satisfies with
      | false => rfl
      | true => exact ih

/-! ### The text with a constraint line -/

section Leading

variable {e : Constraint}

theorem notMem_goBuildLine (h : e.IsProper) : '\n' ∉ (goBuildLine e).toList := by
  intro hmem
  rw [goBuildLine, String.toList_append, List.mem_append] at hmem
  rcases hmem with hmark | hdisplay
  · exact absurd hmark (by decide)
  · have htag : isTagChar '\n' = false := isTagChar_of_isBlank (by decide)
    rcases mem_display h hdisplay with hfeed | hfeed
    · exact absurd hfeed (by simp [htag])
    · exact absurd hfeed (by decide)

theorem getLast?_goBuildLine (h : e.IsProper) : (goBuildLine e).toList.getLast? ≠ some '\r' := by
  obtain ⟨c, hlast, hc⟩ := getLast?_display h
  rw [goBuildLine, String.toList_append, List.getLast?_append, hlast]
  rintro ⟨⟩
  exact absurd hc (by decide)

theorem isGoBuild_goBuildLine (e : Constraint) : isGoBuild (goBuildLine e) = true := by
  rw [isGoBuild, isPrefixOf?_goBuildLine]
  rfl

/-- **A constraint line** in front is found, and the leading part goes on behind it. -/
theorem read_goBuildLine (h : e.IsProper) (later : List (List Char)) :
    ∃ pending, Leading.read ⟨false, false, none, [], []⟩ 1 ((goBuildLine e).toList :: later) =
      Leading.read ⟨false, false, some ⟨1, goBuildLine e⟩, pending, []⟩ 2 later := by
  have hmark : (goBuildLine e).toList = '/' :: '/' :: ("go:build ".toList ++ e.display.toList) := by
    simp [goBuildLine]
  have hafter : Leading.afterComments false (goBuildLine e).toList = .outside := by
    rw [hmark, Leading.afterComments]
    simp
  have hcomment : "//".toList.isPrefixOf (goBuildLine e).toList = true := by
    rw [hmark]
    rfl
  rw [Leading.read, trim_goBuildLine h, if_neg (by simp [hmark]), String.ofList_toList, hcomment]
  simp only [isGoBuild_goBuildLine, hafter]
  exact ⟨_, rfl⟩

/-- A blank line lets the legacy lines before it count. -/
theorem read_blank {found : Leading.Found} (hended : found.ended = false) (number : ℕ)
    (later : List (List Char)) : Leading.read found number ([] :: later) =
      Leading.read { found with pending := [], plusBuild := found.plusBuild ++ found.pending }
        (number + 1) later := by
  rw [Leading.read, if_pos (by simp [hended, Text.trim, Text.trimStart, Text.trimEnd])]

/-- **A package clause** ends the leading part. -/
theorem read_package (found : Leading.Found) (number : ℕ) (rest : List Char)
    (hinside : found.inside = false) :
    ∃ lines, Leading.read found number (Text.lines ('p' :: rest)) = .ok lines ∧
      lines.goBuild = found.goBuild := by
  obtain ⟨l, later, hlines⟩ := Text.exists_lines_cons (c := 'p') (by decide) rest
  obtain ⟨l', htrim⟩ := Text.exists_trim_cons (c := 'p') (by decide) l
  have hgo : isGoBuild ("p" ++ String.ofList l') = false := by
    simp [isGoBuild, goBuildMark, List.isPrefixOf?]
  rw [hlines, Leading.read]
  simp [htrim, hgo, hinside, Leading.afterComments, Leading.Found.result]

/-- **The scanner finds a constraint line** that stands before a package clause. -/
theorem scanConstraints_goBuildLine (h : e.IsProper) (rest : String) :
    ∃ found, scanConstraints (goBuildLine e ++ "\n\npackage" ++ rest) = .ok found ∧
      found.goBuild = some ⟨1, goBuildLine e⟩ := by
  have htext : (goBuildLine e ++ "\n\npackage" ++ rest).toList =
      (goBuildLine e).toList ++ '\n' :: ([] ++ '\n' :: 'p' :: ("ackage".toList ++ rest.toList)) := by
    simp
  have hbegin (cs : List Char) : Text.dropByteOrderMark ((goBuildLine e).toList ++ cs) =
      (goBuildLine e).toList ++ cs := by
    have hmark : (goBuildLine e).toList = '/' :: ("/go:build ".toList ++ e.display.toList) := by
      simp [goBuildLine]
    rw [hmark]
    rfl
  rw [scanConstraints, htext, hbegin,
    Text.lines_append (notMem_goBuildLine h) (getLast?_goBuildLine h),
    Text.lines_append (by simp) (by simp)]
  obtain ⟨pending, hread⟩ := read_goBuildLine h
    ([] :: Text.lines ('p' :: ("ackage".toList ++ rest.toList)))
  rw [hread, read_blank rfl]
  exact read_package _ _ _ rfl

end Leading

/-! ### Both forms select the same -/

/-- **A text with a constraint line** is selected if its expression holds. -/
theorem Target.fitsConstraints_goBuildLine {e : Constraint} (h : e.IsProper) (t : Target)
    (rest : String) : t.fitsConstraints (goBuildLine e ++ "\n\npackage" ++ rest) =
      .ok (e.eval t.satisfies) := by
  obtain ⟨found, hscan, hgo⟩ := scanConstraints_goBuildLine h rest
  rw [Target.fitsConstraints, hscan]
  dsimp only
  rw [hgo]
  dsimp only
  rw [parseGoBuild_written h]
  dsimp only
  rw [(alike_regrouped e).eval]

/-- **Legacy lines and constraint lines agree.** The legacy lines of a text, of which there is
one at least and each can be read, select the text for the same targets as one constraint line
with the conjunction of their expressions in front of a package clause. -/
theorem Target.fitsConstraints_joined {src : String} {found : ConstraintLines}
    {es : List Constraint} (t : Target) (hscan : scanConstraints src = .ok found)
    (hgo : found.goBuild = none) (hlines : found.plusBuild ≠ [])
    (hread : found.plusBuild.mapM (fun c => parsePlusBuild c.text) = .ok es) :
    ∃ e, joined .and es = some e ∧ t.fitsConstraints src = .ok (e.eval t.satisfies) ∧
      ∀ rest : String, t.fitsConstraints ("//go:build " ++ e.display ++ "\n\npackage" ++ rest) =
        .ok (e.eval t.satisfies) := by
  have hproper : ∀ e ∈ es, e.IsProper := of_mapM (fun _ _ => isProper_of_parsePlusBuild) hread
  obtain ⟨e, hjoined⟩ : ∃ e, joined .and es = some e := by
    cases es with
    | nil =>
        cases hfirst : found.plusBuild with
        | nil => exact absurd hfirst hlines
        | cons c cs =>
            rw [hfirst] at hread
            cases mapM_eq_ok_iff.1 hread
    | cons e es => exact ⟨_, rfl⟩
  refine ⟨e, hjoined, ?_, fun rest => ?_⟩
  · rw [Target.fitsConstraints, hscan]
    dsimp only
    rw [hgo, eval_joined_and hjoined]
    exact t.fitsPlusBuild_of_mapM hread
  · exact fitsConstraints_goBuildLine (isProper_joined_and hproper hjoined) t rest

/-- Two legacy lines, of which the second one is a choice with a conjunction in it. -/
theorem Target.fitsConstraints_joined_two_lines :
    scanConstraints "// +build !ignore\n// +build darwin linux,amd64\n\npackage x\n" =
        .ok ⟨none, [⟨1, "// +build !ignore"⟩, ⟨2, "// +build darwin linux,amd64"⟩]⟩ ∧
      ∃ e, joined .and [.not (.tag "ignore"),
          .or (.tag "darwin") (.and (.tag "linux") (.tag "amd64"))] = some e ∧
        ({} : Target).fitsConstraints
            "// +build !ignore\n// +build darwin linux,amd64\n\npackage x\n" =
          .ok (e.eval ({} : Target).satisfies) ∧
        ∀ rest : String, ({} : Target).fitsConstraints
            ("//go:build " ++ e.display ++ "\n\npackage" ++ rest) =
          .ok (e.eval ({} : Target).satisfies) := by
  have hlines : Text.lines (Text.dropByteOrderMark
      "// +build !ignore\n// +build darwin linux,amd64\n\npackage x\n".toList) =
      ["// +build !ignore".toList, "// +build darwin linux,amd64".toList, [], "package x".toList] := by
    decide +kernel
  have hscan : scanConstraints "// +build !ignore\n// +build darwin linux,amd64\n\npackage x\n" =
      .ok ⟨none, [⟨1, "// +build !ignore"⟩, ⟨2, "// +build darwin linux,amd64"⟩]⟩ := by
    rw [scanConstraints, hlines]
    simp [Leading.read, Text.trim, Text.trimStart, Text.trimEnd, isBlank, isGoBuild, goBuildMark,
      isPlusBuild, plusBuildMark, Text.words, List.splitOnP_cons_eq_if_modifyHead,
      List.splitOnP_nil, List.isPrefixOf?, Leading.afterComments, Leading.Found.result]
  refine ⟨hscan, Target.fitsConstraints_joined {} hscan rfl (by simp) ?_⟩
  exact mapM_eq_ok_iff.2 (.cons (by decide +kernel) (.cons (by decide +kernel) .nil))

end GoPlanner
