import GoPlanner.Proofs.Constraint.Phrases
import GoPlanner.Proofs.Constraint.Written

/-!
# Which Lines Are Read

A constraint line is read if it has the mark and what follows splits into tokens that the grammar
derives, and not otherwise. The expression is the tree of the only derivation.

## Main definitions

* `Constraint.Token.text`: the characters of a token.
* `Constraint.Splits`: a text that splits into tokens, with spaces and tabs between them.

## Main results

* `Constraint.tokens_eq_ok_iff`: a text is cut into the tokens that it splits into.
* `parseGoBuild_iff`: which lines are read, and as which expression.
-/

namespace GoPlanner

namespace Constraint

/-- **The characters of a token.** -/
def Token.text : Token → List Char
  | tag name => name.toList
  | not => ['!']
  | and => ['&', '&']
  | or => ['|', '|']
  | opening => ['(']
  | closing => [')']

/-- **A text splits into tokens.** Nothing but spaces and tabs stands between them, and a tag is as
long as possible. -/
inductive Splits : List Char → List Token → Prop
  /-- No characters are no tokens. -/
  | nil : Splits [] []
  /-- A space or a tab is skipped. -/
  | blank {c cs ts} (hc : c = ' ' ∨ c = '\t') (h : Splits cs ts) : Splits (c :: cs) ts
  /-- A token comes first: a sign, or a tag that does not go on. -/
  | token {t : Token} {cs ts} (ht : t.IsProper) (hends : ∀ name, t = .tag name → EndsTag cs)
      (h : Splits cs ts) : Splits (t.text ++ cs) (t :: ts)

/-! ### Tokens -/

variable {c : Char} {cs : List Char} {ts : List Token}

theorem tokens_blank (hc : c = ' ' ∨ c = '\t') (cs : List Char) : tokens (c :: cs) = tokens cs := by
  rcases hc with rfl | rfl <;> (rw [tokens.eq_def]; rfl)

/-- **A token that comes first** is cut off. -/
theorem tokens_text {t : Token} (ht : t.IsProper) (hends : ∀ name, t = .tag name → EndsTag cs) :
    tokens (t.text ++ cs) = (tokens cs).map (t :: ·) := by
  cases t with
  | tag name => exact lexes_tag ht cs (hends name rfl)
  | not => exact tokens_not cs
  | and => exact tokens_and cs
  | or => exact tokens_or cs
  | opening => exact tokens_opening cs
  | closing => exact tokens_closing cs

/-- A first token and the tokens behind it. -/
theorem splits_of_map {t : Token} {r : List Token} (ht : t.IsProper)
    (hends : ∀ name, t = .tag name → EndsTag cs) (ih : ∀ {ts}, tokens cs = .ok ts → Splits cs ts)
    (h : (tokens cs).map (t :: ·) = .ok r) : Splits (t.text ++ cs) r := by
  cases hrest : tokens cs with
  | error fault => simp [hrest, Except.map] at h
  | ok ts =>
      rw [hrest] at h
      obtain rfl := Except.ok.inj h
      exact .token ht hends (ih hrest)

/-- The tokens of a text are such that it splits into them. -/
theorem splits_of_tokens (h : tokens cs = .ok ts) : Splits cs ts := by
  fun_induction tokens cs generalizing ts with
  | case1 =>
      obtain rfl := Except.ok.inj h
      exact .nil
  | case2 cs ih => exact splits_of_map (t := .and) trivial (by simp) ih h
  | case3 cs ih => exact splits_of_map (t := .or) trivial (by simp) ih h
  | case4 c cs _ _ hblank ih => exact .blank (by simpa using hblank) (ih h)
  | case5 cs _ _ _ ih => exact splits_of_map (t := .opening) trivial (by simp) ih h
  | case6 cs _ _ _ _ ih => exact splits_of_map (t := .closing) trivial (by simp) ih h
  | case7 cs _ _ _ _ _ ih => exact splits_of_map (t := .not) trivial (by simp) ih h
  | case8 => cases h
  | case9 c cs _ _ _ _ _ _ _ hc ih =>
      -- The tag is the longest beginning of tag characters.
      have htext : c :: cs = (Token.tag (String.ofList (c :: cs.takeWhile isTagChar))).text ++
          cs.dropWhile isTagChar := by
        simp [Token.text]
      rw [htext]
      refine splits_of_map ?_ (fun _ _ d hd => ?_) ih h
      · simpa [Token.IsProper, isValidTag] using hc
      · have hhead := List.head?_dropWhile_not isTagChar cs
        rw [Option.mem_def.1 hd] at hhead
        simpa using hhead
  | case10 => cases h

/-- **A text is cut** into the tokens that it splits into. -/
theorem tokens_eq_ok_iff : tokens cs = .ok ts ↔ Splits cs ts := by
  refine ⟨splits_of_tokens, fun h => ?_⟩
  induction h with
  | nil => rw [tokens]
  | blank hc _ ih => rw [tokens_blank hc, ih]
  | token ht hends _ ih =>
      rw [tokens_text ht hends, ih]
      rfl

end Constraint

open Constraint

/-- **Which lines are read.** A line is read as an expression exactly if it has the mark, what
follows the mark splits into tokens, and these have one derivation only, whose tree is the
expression. Any other line is refused. -/
theorem parseGoBuild_iff (line : String) :
    (∀ e, parseGoBuild line = .ok e ↔
      ∃ text ts, Text.trim line.toList = goBuildMark.toList ++ text ∧ Splits text ts ∧
        ∃ phrase : OrPhrase, phrase.tokens = ts ∧ phrase.tree = e ∧
          ∀ other : OrPhrase, other.tokens = ts → other = phrase) ∧
    ((∃ fault, parseGoBuild line = .error fault) ↔
      ¬ ∃ text ts, Text.trim line.toList = goBuildMark.toList ++ text ∧ Splits text ts ∧
        ∃ phrase : OrPhrase, phrase.tokens = ts) := by
  have hread (e : Constraint) : parseGoBuild line = .ok e ↔
      ∃ text ts, Text.trim line.toList = goBuildMark.toList ++ text ∧ Splits text ts ∧
        ∃ phrase : OrPhrase, phrase.tokens = ts ∧ phrase.tree = e := by
    rw [parseGoBuild]
    constructor
    · intro h
      split at h
      · cases h
      next text htext =>
        cases htokens : tokens text with
        | error fault => simp [htokens, Except.bind] at h
        | ok ts =>
            rw [htokens] at h
            exact ⟨text, ts, (List.isPrefixOf?_eq_some_iff_append_eq.1 htext).symm,
              tokens_eq_ok_iff.1 htokens, ofTokens_eq_ok_iff.1 h⟩
    · rintro ⟨text, ts, hline, hsplits, hphrase⟩
      rw [List.isPrefixOf?_eq_some_iff_append_eq.2 hline.symm]
      dsimp only
      rw [tokens_eq_ok_iff.2 hsplits]
      exact ofTokens_eq_ok_iff.2 hphrase
  refine ⟨fun e => (hread e).trans ⟨?_, ?_⟩, ?_⟩
  · rintro ⟨text, ts, hline, hsplits, phrase, rfl, htree⟩
    exact ⟨text, _, hline, hsplits, phrase, rfl, htree,
      fun _ hother => OrPhrase.tokens_injective hother⟩
  · rintro ⟨text, ts, hline, hsplits, phrase, htokens, htree, -⟩
    exact ⟨text, ts, hline, hsplits, phrase, htokens, htree⟩
  · have hfails : (∃ fault, parseGoBuild line = .error fault) ↔
        ¬ ∃ e, parseGoBuild line = .ok e := by
      cases parseGoBuild line <;> simp
    rw [hfails, not_iff_not]
    constructor
    · rintro ⟨e, he⟩
      obtain ⟨text, ts, hline, hsplits, phrase, htokens, -⟩ := (hread e).1 he
      exact ⟨text, ts, hline, hsplits, phrase, htokens⟩
    · rintro ⟨text, ts, hline, hsplits, phrase, htokens⟩
      exact ⟨phrase.tree, (hread _).2 ⟨text, ts, hline, hsplits, phrase, htokens, rfl⟩⟩

end GoPlanner
