import GoPlanner.Proofs.Constraint.Legacy
import GoPlanner.Proofs.Text.Words

/-!
# The Meaning of a Legacy Line

A legacy line says that one of its clauses has to hold, and a clause says that all of its terms have
to. The test for legacy lines looks at the first word of a comment, while reading takes the mark
away from its front; both find the same clauses behind it. The line can be read unless one of the
terms is no tag, with or without an exclamation mark.

## Main definitions

* `Constraint.clausesOf`: the clauses of a legacy line, as terms.
* `Constraint.bare`, `Constraint.termHolds`: the tag of a term, and when a term holds.

## Main results

* `parsePlusBuild_eq_ofClauses`: a legacy line is read as its clauses.
* `Constraint.exists_ofClauses_iff`: which clauses can be read.
* `Constraint.eval_of_ofClauses`: clauses are a disjunction of conjunctions.
* `parsePlusBuild_meaning`: which legacy lines can be read, and what they mean.
-/

namespace GoPlanner

namespace Constraint

/-- **The clauses of a legacy line:** the words behind the mark, cut into terms at the commas. -/
def clausesOf (line : String) : List (List (List Char)) :=
  ((Text.words (line.toList.drop 2)).tail).map (·.splitOn ',')

/-- A term without the exclamation mark in front of it, if there is one. -/
def bare : List Char → List Char
  | '!' :: name => name
  | name => name

/-- **A term holds** if its tag is enabled, or if it is not and an exclamation mark stands before
it. -/
def termHolds (enabled : String → Bool) : List Char → Bool
  | '!' :: name => !enabled (String.ofList name)
  | name => enabled (String.ofList name)

variable {enabled : String → Bool} {term clause : List Char} {clauses : List (List Char)}
  {e : Constraint} {fault : ConstraintError}

/-! ### Steps that can fail -/

section Steps

variable {α β ε : Type} {f : α → Except ε β} {xs : List α}

/-- **A list of steps** succeeds if all of them do. -/
theorem exists_mapM_iff : (∃ ys, xs.mapM f = .ok ys) ↔ ∀ x ∈ xs, ∃ y, f x = .ok y := by
  induction xs with
  | nil => simp [pure, Except.pure]
  | cons x xs ih =>
      rw [List.forall_mem_cons, ← ih]
      simp only [mapM_eq_ok_iff, List.forall₂_cons_left_iff]
      constructor
      · rintro ⟨_, y, ys, hx, hxs, -⟩
        exact ⟨⟨y, hx⟩, ys, hxs⟩
      · rintro ⟨⟨y, hx⟩, ys, hxs⟩
        exact ⟨_, y, ys, hx, hxs, rfl⟩

/-- The fault of a list of steps is that of one of them. -/
theorem exists_of_mapM_error {e : ε} (h : xs.mapM f = .error e) : ∃ x ∈ xs, f x = .error e := by
  induction xs with
  | nil => cases h
  | cons x xs ih =>
      rw [List.mapM_cons] at h
      cases hx : f x with
      | error e' =>
          rw [hx] at h
          obtain rfl := Except.error.inj h
          exact ⟨x, List.mem_cons_self, hx⟩
      | ok y =>
          cases hxs : xs.mapM f with
          | error e' =>
              rw [hx, hxs] at h
              obtain rfl := Except.error.inj h
              obtain ⟨x', hx', hfault⟩ := ih hxs
              exact ⟨x', List.mem_cons_of_mem x hx', hfault⟩
          | ok ys =>
              rw [hx, hxs] at h
              cases h

end Steps

/-- **A disjunction** holds if one of its parts does. -/
theorem eval_joined_or {es : List Constraint} {whole : Constraint}
    (h : joined .or es = some whole) : whole.eval enabled = es.any (·.eval enabled) := by
  cases es with
  | nil => cases h
  | cons e es =>
      obtain rfl := Option.some.inj h
      clear h
      induction es generalizing e with
      | nil => simp
      | cons e' es ih =>
          rw [List.foldl_cons, ih (or e e')]
          simp [eval, Bool.or_assoc]

/-! ### Terms -/

/-- A term that can be read is a valid tag, perhaps behind an exclamation mark. -/
theorem exists_ofTerm_iff :
    (∃ e, ofTerm term = .ok e) ↔ isValidTag (String.ofList (bare term)) = true := by
  rw [ofTerm.eq_def, bare.eq_def]
  split
  · split <;> simp_all
  · split <;> simp_all

/-- **What is no valid tag** is empty or has another character than tags have. -/
theorem not_isValidTag_iff : ¬ isValidTag (String.ofList term) = true ↔
    term = [] ∨ ∃ c ∈ term, ¬ (isAlphanumeric c = true ∨ c = '_' ∨ c = '.') := by
  rw [isValidTag, String.toList_ofList, Bool.and_eq_true, List.all_eq_true, Bool.not_eq_true',
    List.isEmpty_eq_false_iff, not_and_or, not_not]
  simp only [isTagChar, Bool.or_eq_true, beq_iff_eq, or_assoc, not_forall, exists_prop]

/-- A term without an exclamation mark holds if it is enabled. -/
theorem termHolds_of_ne (h : ∀ name, term ≠ '!' :: name) :
    termHolds enabled term = enabled (String.ofList term) := by
  rw [termHolds.eq_def]
  split
  next name => exact absurd rfl (h name)
  next => rfl

/-- **The meaning of a term.** -/
theorem eval_of_ofTerm (h : ofTerm term = .ok e) : e.eval enabled = termHolds enabled term := by
  rw [ofTerm.eq_def] at h
  split at h <;> split at h
  · obtain rfl := Except.ok.inj h
    rfl
  · cases h
  next hneg _ =>
    obtain rfl := Except.ok.inj h
    exact (termHolds_of_ne hneg).symm
  · cases h

theorem ofTerm_ne_notPlusBuild : ofTerm term ≠ .error .notPlusBuild := by
  rw [ofTerm.eq_def]
  split <;> split <;> simp

/-! ### Clauses -/

/-- **The meaning of a clause:** there is one, and all terms have to hold. -/
theorem exists_eval_of_ofClause {e? : Option Constraint} (h : ofClause clause = .ok e?) :
    ∃ e, e? = some e ∧
      ∀ enabled, e.eval enabled = (clause.splitOn ',').all (termHolds enabled) := by
  rw [ofClause] at h
  cases hterms : (clause.splitOn ',').mapM ofTerm with
  | error fault =>
      rw [hterms] at h
      cases h
  | ok es =>
      rw [hterms] at h
      obtain rfl := Except.ok.inj h
      have hread := mapM_eq_ok_iff.1 hterms
      have hne : es ≠ [] := by
        rintro rfl
        cases hlist : clause.splitOn ',' with
        | nil => exact List.splitOn_ne_nil ',' clause hlist
        | cons term terms =>
            rw [hlist] at hread
            cases hread
      obtain ⟨first, rest, rfl⟩ := List.exists_cons_of_ne_nil hne
      refine ⟨_, rfl, fun enabled => ?_⟩
      have hjoined : joined .and (first :: rest) = some (rest.foldl .and first) := rfl
      rw [eval_joined_and hjoined]
      clear h hterms hne hjoined
      generalize clause.splitOn ',' = terms, first :: rest = es at hread ⊢
      induction hread with
      | nil => rfl
      | cons hterm _ ih => rw [List.all_cons, List.all_cons, eval_of_ofTerm hterm, ih]

theorem exists_ofClause_iff : (∃ e?, ofClause clause = .ok e?) ↔
    ∀ term ∈ clause.splitOn ',', isValidTag (String.ofList (bare term)) = true := by
  simp only [← exists_ofTerm_iff, ← exists_mapM_iff]
  rw [ofClause]
  cases (clause.splitOn ',').mapM ofTerm <;> simp [Except.map]

theorem ofClause_ne_notPlusBuild : ofClause clause ≠ .error .notPlusBuild := by
  rw [ofClause]
  cases hterms : (clause.splitOn ',').mapM ofTerm with
  | error fault =>
      obtain ⟨term, -, hfault⟩ := exists_of_mapM_error hterms
      rintro h
      obtain rfl := Except.error.inj h
      exact ofTerm_ne_notPlusBuild hfault
  | ok es => simp [Except.map]

/-- **Clauses can be read** if all of their terms are valid tags, but for exclamation marks. -/
theorem exists_ofClauses_iff : (∃ e, ofClauses clauses = .ok e) ↔
    ∀ clause ∈ clauses, ∀ term ∈ clause.splitOn ',',
      isValidTag (String.ofList (bare term)) = true := by
  simp only [← exists_ofClause_iff, ← exists_mapM_iff]
  rw [ofClauses]
  cases clauses.mapM ofClause <;> simp [Except.map]

theorem ofClauses_ne_notPlusBuild : ofClauses clauses ≠ .error .notPlusBuild := by
  rw [ofClauses]
  cases hclauses : clauses.mapM ofClause with
  | error fault =>
      obtain ⟨clause, -, hfault⟩ := exists_of_mapM_error hclauses
      rintro h
      obtain rfl := Except.error.inj h
      exact ofClause_ne_notPlusBuild hfault
  | ok es => simp [Except.map]

/-- **The meaning of clauses:** one of them has to hold, if there are any. -/
theorem eval_of_ofClauses (h : ofClauses clauses = .ok e) (hne : clauses ≠ []) :
    e.eval enabled = clauses.any (fun clause => (clause.splitOn ',').all (termHolds enabled)) := by
  rw [ofClauses] at h
  cases hclauses : clauses.mapM ofClause with
  | error fault =>
      rw [hclauses] at h
      cases h
  | ok es =>
      rw [hclauses] at h
      obtain rfl := Except.ok.inj h
      -- Every clause gives a part of the disjunction, so none is left out.
      have hparts : ∀ (clauses : List (List Char)) (es : List (Option Constraint)),
          List.Forall₂ (fun clause e? => ofClause clause = .ok e?) clauses es →
          ∃ parts : List Constraint, es = parts.map some ∧ parts.any (·.eval enabled) =
            clauses.any (fun clause => (clause.splitOn ',').all (termHolds enabled)) := by
        intro clauses es hread
        induction hread with
        | nil => exact ⟨[], rfl, rfl⟩
        | cons hclause _ ih =>
            obtain ⟨e, rfl, heval⟩ := exists_eval_of_ofClause hclause
            obtain ⟨parts, rfl, hany⟩ := ih
            exact ⟨e :: parts, rfl, by rw [List.any_cons, List.any_cons, heval, hany]⟩
      obtain ⟨parts, rfl, hany⟩ := hparts clauses es (mapM_eq_ok_iff.1 hclauses)
      have hfilter : (parts.map some).filterMap id = parts := by simp
      dsimp only
      rw [hfilter, ← hany]
      cases parts with
      | nil =>
          have hread := mapM_eq_ok_iff.1 hclauses
          cases hread
          exact absurd rfl hne
      | cons first rest => exact eval_joined_or rfl

end Constraint

open Constraint

/-! ### Lines -/

/-- The clauses of a legacy line are behind the mark. -/
theorem exists_words_of_isPlusBuild {line : String} (h : isPlusBuild line = true) :
    ∃ rest clauses, line.toList = "//".toList ++ rest ∧
      Text.words rest = plusBuildMark.toList :: clauses ∧
      clausesOf line = clauses.map (·.splitOn ',') := by
  rw [isPlusBuild] at h
  split at h
  next rest hrest =>
    obtain ⟨clauses, hwords⟩ := List.head?_eq_some_iff.1 (beq_iff_eq.1 h)
    have hline : line.toList = "//".toList ++ rest :=
      (List.isPrefixOf?_eq_some_iff_append_eq.1 hrest).symm
    have hdrop : line.toList.drop 2 = rest := by
      rw [hline]
      exact List.drop_left' (by decide)
    exact ⟨rest, clauses, hline, hwords, by rw [clausesOf, hdrop, hwords, List.tail_cons]⟩
  · cases h

/-- **A legacy line is read** as the clauses behind its first word, which is the mark. -/
theorem parsePlusBuild_eq_ofClauses {line : String} {rest : List Char} {clauses : List (List Char)}
    (hline : line.toList = "//".toList ++ rest)
    (hwords : Text.words rest = plusBuildMark.toList :: clauses) :
    parsePlusBuild line = ofClauses clauses := by
  obtain ⟨kept, back, htrim, hrest, hback⟩ :=
    Text.exists_trim_append (by simp [isBlank] : ∀ c ∈ "//".toList, isBlank c = false)
      (by decide) rest
  have hkept : Text.words kept = plusBuildMark.toList :: clauses := by
    rw [← hwords, hrest, Text.words_append_of_isBlank hback]
  obtain ⟨text, hstart, htext⟩ := Text.exists_of_words_eq_cons hkept
  have hslashes : "//".toList.isPrefixOf? (Text.trim line.toList) = some kept := by
    rw [hline, htrim]
    exact List.isPrefixOf?_eq_some_iff_append_eq.2 rfl
  have hmark : plusBuildMark.toList.isPrefixOf? (Text.trimStart kept) = some text := by
    rw [hstart]
    exact List.isPrefixOf?_eq_some_iff_append_eq.2 rfl
  rw [parsePlusBuild, hslashes]
  dsimp only
  rw [hmark]
  dsimp only
  rw [htext]

/-- **The meaning of a legacy line.** It is never refused for its mark. It cannot be read exactly if
one of its terms, without an exclamation mark in front, is empty or has a character that no tag has.
If it can be read and has a clause, it holds exactly if all terms of one of its clauses do. -/
theorem parsePlusBuild_meaning {line : String} (h : isPlusBuild line = true) :
    parsePlusBuild line ≠ .error .notPlusBuild ∧
    ((∃ fault, parsePlusBuild line = .error fault) ↔
      ∃ clause ∈ clausesOf line, ∃ term ∈ clause, bare term = [] ∨
        ∃ c ∈ bare term, ¬ (isAlphanumeric c = true ∨ c = '_' ∨ c = '.')) ∧
    ∀ e, parsePlusBuild line = .ok e → clausesOf line ≠ [] → ∀ enabled : String → Bool,
      e.eval enabled = true ↔
        ∃ clause ∈ clausesOf line, ∀ term ∈ clause, termHolds enabled term = true := by
  obtain ⟨rest, clauses, hline, hwords, hclauses⟩ := exists_words_of_isPlusBuild h
  rw [parsePlusBuild_eq_ofClauses hline hwords, hclauses]
  refine ⟨ofClauses_ne_notPlusBuild, ?_, fun e he hne enabled => ?_⟩
  · have hfails : (∃ fault, ofClauses clauses = .error fault) ↔ ¬ ∃ e, ofClauses clauses = .ok e := by
      cases ofClauses clauses <;> simp
    rw [hfails, exists_ofClauses_iff]
    simp only [not_forall, exists_prop, not_isValidTag_iff, List.mem_map,
      exists_exists_and_eq_and]
  · rw [eval_of_ofClauses he (by simpa using hne)]
    simp [List.any_eq_true, List.all_eq_true]

/-- A line with two clauses can be read, and one with two exclamation marks in a term cannot. -/
theorem parsePlusBuild_meaning_two_lines :
    (isPlusBuild "// +build linux,amd64 darwin,!cgo" = true ∧
      ∃ e, parsePlusBuild "// +build linux,amd64 darwin,!cgo" = .ok e ∧
        ∀ enabled : String → Bool, e.eval enabled = true ↔
          enabled "linux" = true ∧ enabled "amd64" = true ∨
          enabled "darwin" = true ∧ enabled "cgo" = false) ∧
      isPlusBuild "//\t+build linux !!cgo" = true ∧
        ∃ fault, parsePlusBuild "//\t+build linux !!cgo" = .error fault := by
  have hread : isPlusBuild "// +build linux,amd64 darwin,!cgo" = true := by decide +kernel
  have hfault : isPlusBuild "//\t+build linux !!cgo" = true := by decide +kernel
  have hclauses : clausesOf "// +build linux,amd64 darwin,!cgo" =
      [["linux".toList, "amd64".toList], ["darwin".toList, "!cgo".toList]] := by decide +kernel
  have hfaulty : clausesOf "//\t+build linux !!cgo" = [["linux".toList], ["!!cgo".toList]] := by
    decide +kernel
  obtain ⟨-, hrefused, hmeaning⟩ := parsePlusBuild_meaning hread
  obtain ⟨-, hrefused', -⟩ := parsePlusBuild_meaning hfault
  refine ⟨⟨hread, ?_⟩, hfault, hrefused'.2 ?_⟩
  · rw [hclauses] at hrefused hmeaning
    cases he : parsePlusBuild "// +build linux,amd64 darwin,!cgo" with
    | error fault => exact absurd (hrefused.1 ⟨fault, he⟩) (by simp [bare, isAlphanumeric])
    | ok e =>
        refine ⟨e, rfl, fun enabled => ?_⟩
        rw [hmeaning e he (by simp) enabled]
        simp [termHolds]
  · exact ⟨["!!cgo".toList], by simp [hfaulty], "!!cgo".toList, by simp,
      .inr ⟨'!', by simp [bare], by simp [isAlphanumeric]⟩⟩

end GoPlanner
