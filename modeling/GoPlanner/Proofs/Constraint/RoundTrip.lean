import GoPlanner.Proofs.Constraint.Phrases
import GoPlanner.Proofs.Constraint.Written
import Mathlib

/-!
# Reading What Was Written

An expression that is written and read again has the same meaning and the same written form. It
need not be the same expression: operators of one kind are written without parentheses, and
are read from left to right, so the operands are grouped to the left.

## Main definitions

* `Constraint.regrouped`: an expression with its operands grouped to the left.

## Main results

* `Constraint.alike_regrouped`: grouping changes neither the meaning nor the written form.
* `Constraint.isReadAs_written`: how the tokens of the written form are read.
* `parseGoBuild_written`: the written form is read as the regrouped expression.
* `isProper_of_parseGoBuild`: expressions that are read are proper.
* `parseGoBuild_display`: the round trip.
-/

namespace GoPlanner

namespace Constraint

/-! ### Grouping to the left -/

mutual

/-- **The expression with its operands grouped to the left.** -/
def regrouped : Constraint → Constraint
  | tag name => tag name
  | not inner => not inner.regrouped
  | and left right => conjoined left.regrouped right
  | or left right => disjoined left.regrouped right

/-- The conjunction of an expression with the conjuncts of another one. -/
def conjoined (left : Constraint) : Constraint → Constraint
  | tag name => and left (tag name)
  | not inner => and left (not inner.regrouped)
  | and first second => conjoined (conjoined left first) second
  | or first second => and left (disjoined first.regrouped second)

/-- The disjunction of an expression with the disjuncts of another one. -/
def disjoined (left : Constraint) : Constraint → Constraint
  | tag name => or left (tag name)
  | not inner => or left (not inner.regrouped)
  | and first second => or left (conjoined first.regrouped second)
  | or first second => disjoined (disjoined left first) second

end

/-- **Expressions that are alike** have the same written form and the same meaning. -/
structure Alike (e e' : Constraint) : Prop where
  /-- They are written with the same text. -/
  display : e.display = e'.display
  /-- Both are disjunctions or none is. -/
  isOr : e.isOr = e'.isOr
  /-- Both have two operands or none has. -/
  isBinary : e.isBinary = e'.isBinary
  /-- They are true for the same tags. -/
  eval : ∀ enabled, e.eval enabled = e'.eval enabled

namespace Alike

variable {a a' b b' c : Constraint}

theorem refl (a : Constraint) : Alike a a :=
  ⟨rfl, rfl, rfl, fun _ => rfl⟩

theorem trans (h : Alike a b) (h' : Alike b c) : Alike a c where
  display := h.display.trans h'.display
  isOr := h.isOr.trans h'.isOr
  isBinary := h.isBinary.trans h'.isBinary
  eval enabled := (h.eval enabled).trans (h'.eval enabled)

theorem not (h : Alike a a') : Alike (.not a) (.not a') where
  display := by rw [Constraint.display, Constraint.display, h.isBinary, h.display]
  isOr := rfl
  isBinary := rfl
  eval enabled := by rw [Constraint.eval, Constraint.eval, h.eval]

theorem and (ha : Alike a a') (hb : Alike b b') : Alike (.and a b) (.and a' b') where
  display := by
    rw [Constraint.display, Constraint.display, ha.isOr, ha.display, hb.isOr, hb.display]
  isOr := rfl
  isBinary := rfl
  eval enabled := by rw [Constraint.eval, Constraint.eval, ha.eval, hb.eval]

theorem or (ha : Alike a a') (hb : Alike b b') : Alike (.or a b) (.or a' b') where
  display := by rw [Constraint.display, Constraint.display, ha.display, hb.display]
  isOr := rfl
  isBinary := rfl
  eval enabled := by rw [Constraint.eval, Constraint.eval, ha.eval, hb.eval]

/-- **Conjunctions** are written without parentheses among each other. -/
theorem and_assoc (a b c : Constraint) : Alike (.and (.and a b) c) (.and a (.and b c)) where
  display := by simp [Constraint.display, Constraint.isOr, enclosed, String.append_assoc]
  isOr := rfl
  isBinary := rfl
  eval enabled := Bool.and_assoc _ _ _

/-- **Disjunctions** are written without parentheses among each other. -/
theorem or_assoc (a b c : Constraint) : Alike (.or (.or a b) c) (.or a (.or b c)) where
  display := by simp [Constraint.display, String.append_assoc]
  isOr := rfl
  isBinary := rfl
  eval enabled := Bool.or_assoc _ _ _

end Alike

/-- **Grouping gives an expression that is alike,** also behind another expression. -/
theorem alike_regroups (e : Constraint) :
    Alike e.regrouped e ∧ (∀ left, Alike (conjoined left e) (and left e)) ∧
      ∀ left, Alike (disjoined left e) (or left e) := by
  induction e with
  | tag name => exact ⟨.refl _, fun _ => .refl _, fun _ => .refl _⟩
  | not inner ih =>
      have hinner : Alike (not inner.regrouped) (not inner) := ih.1.not
      exact ⟨hinner, fun left => (Alike.refl left).and hinner, fun left => (Alike.refl left).or hinner⟩
  | and first second ihf ihs =>
      obtain ⟨hfirst, hconjoin, -⟩ := ihf
      obtain ⟨-, hconjoin', -⟩ := ihs
      have hwhole : Alike (conjoined first.regrouped second) (and first second) :=
        (hconjoin' _).trans (hfirst.and (.refl _))
      refine ⟨hwhole, fun left => ?_, fun left => (Alike.refl left).or hwhole⟩
      exact ((hconjoin' _).trans ((hconjoin left).and (.refl _))).trans (.and_assoc _ _ _)
  | or first second ihf ihs =>
      obtain ⟨hfirst, -, hdisjoin⟩ := ihf
      obtain ⟨-, -, hdisjoin'⟩ := ihs
      have hwhole : Alike (disjoined first.regrouped second) (or first second) :=
        (hdisjoin' _).trans (hfirst.or (.refl _))
      refine ⟨hwhole, fun left => (Alike.refl left).and hwhole, fun left => ?_⟩
      exact ((hdisjoin' _).trans ((hdisjoin left).or (.refl _))).trans (.or_assoc _ _ _)

theorem alike_regrouped (e : Constraint) : Alike e.regrouped e :=
  (alike_regroups e).1

/-! ### Reading the written form -/

section Written

variable {ts us : List Token} {x y : Constraint} {f g : Constraint → Constraint}

/-- **Tokens read among conjuncts.** In front they start a conjunction, and behind an expression
they are added to it, as the function says. -/
structure IsReadByAnd (ts : List Token) (x : Constraint) (f : Constraint → Constraint) : Prop where
  /-- The tokens come first. -/
  first : ∀ {rest e rest'}, Gives (readAndTail x rest) e rest' →
    Gives (readAnd (ts ++ rest)) e rest'
  /-- The tokens come behind an expression. -/
  behind : ∀ {left rest e rest'}, Gives (readAndTail (f left) rest) e rest' →
    Gives (readAndTail left (.and :: (ts ++ rest))) e rest'

/-- **Tokens read among disjuncts,** if no conjunct follows. -/
structure IsReadByOr (ts : List Token) (x : Constraint) (f : Constraint → Constraint) : Prop where
  /-- The tokens come first. -/
  first : ∀ {rest e rest'}, rest.head? ≠ some .and → Gives (readOrTail x rest) e rest' →
    Gives (readOr (ts ++ rest)) e rest'
  /-- The tokens come behind an expression. -/
  behind : ∀ {left rest e rest'}, rest.head? ≠ some .and →
    Gives (readOrTail (f left) rest) e rest' →
    Gives (readOrTail left (.or :: (ts ++ rest))) e rest'

/-- A negation or an atom is one conjunct. -/
theorem isReadByAnd_of_readNot (h : ∀ rest, Gives (readNot (ts ++ rest)) x rest) :
    IsReadByAnd ts x (.and · x) where
  first hrest := (h _).readAnd hrest
  behind hrest := (h _).readAndTail hrest

/-- **Conjuncts with `&&` between them.** -/
theorem IsReadByAnd.and (h : IsReadByAnd ts x f) (h' : IsReadByAnd us y g) :
    IsReadByAnd (ts ++ .and :: us) (g x) (fun left => g (f left)) where
  first hrest := by
    rw [List.append_assoc]
    exact h.first (h'.behind hrest)
  behind hrest := by
    rw [List.append_assoc]
    exact h.behind (h'.behind hrest)

/-- Conjuncts are one disjunct. -/
theorem IsReadByAnd.isReadByOr (h : IsReadByAnd ts x f) : IsReadByOr ts x (.or · x) where
  first hand hrest := (h.first (gives_readAndTail x hand)).readOr hrest
  behind hand hrest := (h.first (gives_readAndTail x hand)).readOrTail hrest

/-- **Disjuncts with `||` between them.** -/
theorem IsReadByOr.or (h : IsReadByOr ts x f) (h' : IsReadByOr us y g) :
    IsReadByOr (ts ++ .or :: us) (g x) (fun left => g (f left)) where
  first hand hrest := by
    rw [List.append_assoc]
    exact h.first (by simp) (h'.behind hand hrest)
  behind hand hrest := by
    rw [List.append_assoc]
    exact h.behind (by simp) (h'.behind hand hrest)

/-- Disjuncts in parentheses are an atom. -/
theorem IsReadByOr.readNot (h : IsReadByOr ts x f) (rest : List Token) :
    Gives (Constraint.readNot (bracketed true ts ++ rest)) x rest := by
  have hinside : Gives (readOr (ts ++ .closing :: rest)) x (.closing :: rest) :=
    h.first (by simp) (gives_readOrTail x (by simp))
  have htokens : bracketed true ts ++ rest = .opening :: (ts ++ .closing :: rest) := by
    simp [bracketed]
  rw [htokens]
  exact hinside.readAtom_opening.readNot (by simp)

/-- **How the written form is read** at each level of the grammar. -/
theorem isReadAs_written (e : Constraint) :
    (e.isBinary = false → ∀ rest, Gives (readNot (e.written ++ rest)) e.regrouped rest) ∧
      (e.isOr = false → IsReadByAnd e.written e.regrouped (conjoined · e)) ∧
      IsReadByOr e.written e.regrouped (disjoined · e) := by
  -- An operand of a conjunction, which stands in parentheses if it is a disjunction.
  have hoperand {e : Constraint}
      (hand : e.isOr = false → IsReadByAnd e.written e.regrouped (conjoined · e))
      (hor : IsReadByOr e.written e.regrouped (disjoined · e)) :
      IsReadByAnd (bracketed e.isOr e.written) e.regrouped (conjoined · e) := by
    cases e with
    | or first second => exact isReadByAnd_of_readNot hor.readNot
    | tag name => exact hand rfl
    | not inner => exact hand rfl
    | and first second => exact hand rfl
  induction e with
  | tag name =>
      have hnot (rest : List Token) : Gives (readNot ((tag name).written ++ rest)) (tag name) rest :=
        gives_readAtom_tag.readNot (by simp [written])
      exact ⟨fun _ => hnot, fun _ => isReadByAnd_of_readNot hnot,
        (isReadByAnd_of_readNot hnot).isReadByOr⟩
  | not inner ih =>
      obtain ⟨hinner, -, hor⟩ := ih
      have hnot (rest : List Token) :
          Gives (readNot ((not inner).written ++ rest)) (not inner.regrouped) rest := by
        refine Gives.readNot_not ?_
        cases hbinary : inner.isBinary with
        | false => exact hinner hbinary rest
        | true => exact hor.readNot rest
      exact ⟨fun _ => hnot, fun _ => isReadByAnd_of_readNot hnot,
        (isReadByAnd_of_readNot hnot).isReadByOr⟩
  | and first second ihf ihs =>
      have hand := (hoperand ihf.2.1 ihf.2.2).and (hoperand ihs.2.1 ihs.2.2)
      exact ⟨nofun, fun _ => hand, hand.isReadByOr⟩
  | or first second ihf ihs => exact ⟨nofun, nofun, ihf.2.2.or ihs.2.2⟩

/-- **The tokens of the written form** are read as the expression grouped to the left. -/
theorem ofTokens_written (e : Constraint) : ofTokens e.written = .ok e.regrouped := by
  have hgives : Gives (readOr (e.written ++ [])) e.regrouped [] :=
    (isReadAs_written e).2.2.first (by simp) (gives_readOrTail _ (by simp))
  rw [List.append_nil] at hgives
  obtain ⟨hlt, hread⟩ := hgives
  have hne : e.written.isEmpty = false := by
    cases hwritten : e.written with
    | nil => simp [hwritten] at hlt
    | cons t ts => rfl
  rw [ofTokens, hne, hread]
  rfl

end Written

/-! ### What is read -/

section Proper

mutual

/-- **The tree of proper tokens** is proper. -/
theorem OrPhrase.isProper_tree (phrase : OrPhrase) (h : ∀ t ∈ phrase.tokens, t.IsProper) :
    phrase.tree.IsProper := by
  match phrase with
  | .mk first more =>
    rw [OrPhrase.tokens, List.forall_mem_append] at h
    exact more.isProper_tree (first.isProper_tree h.1) h.2

theorem OrTail.isProper_tree (more : OrTail) {left : Constraint} (hleft : left.IsProper)
    (h : ∀ t ∈ more.tokens, t.IsProper) : (more.tree left).IsProper := by
  match more with
  | .nil => exact hleft
  | .cons next more =>
    rw [OrTail.tokens, List.forall_mem_cons, List.forall_mem_append] at h
    exact more.isProper_tree (isProper_or.2 ⟨hleft, next.isProper_tree h.2.1⟩) h.2.2

theorem AndPhrase.isProper_tree (phrase : AndPhrase) (h : ∀ t ∈ phrase.tokens, t.IsProper) :
    phrase.tree.IsProper := by
  match phrase with
  | .mk first more =>
    rw [AndPhrase.tokens, List.forall_mem_append] at h
    exact more.isProper_tree (first.isProper_tree h.1) h.2

theorem AndTail.isProper_tree (more : AndTail) {left : Constraint} (hleft : left.IsProper)
    (h : ∀ t ∈ more.tokens, t.IsProper) : (more.tree left).IsProper := by
  match more with
  | .nil => exact hleft
  | .cons next more =>
    rw [AndTail.tokens, List.forall_mem_cons, List.forall_mem_append] at h
    exact more.isProper_tree (isProper_and.2 ⟨hleft, next.isProper_tree h.2.1⟩) h.2.2

theorem NotPhrase.isProper_tree (phrase : NotPhrase) (h : ∀ t ∈ phrase.tokens, t.IsProper) :
    phrase.tree.IsProper := by
  match phrase with
  | .not inner => exact inner.isProper_tree (List.forall_mem_cons.1 h).2
  | .atom atom => exact atom.isProper_tree h

theorem AtomPhrase.isProper_tree (atom : AtomPhrase) (h : ∀ t ∈ atom.tokens, t.IsProper) :
    atom.tree.IsProper := by
  match atom with
  | .tag name => exact isProper_tag.2 (h _ List.mem_cons_self)
  | .parens inner =>
    rw [AtomPhrase.tokens, List.forall_mem_cons, List.forall_mem_append] at h
    exact inner.isProper_tree h.2.1

end

theorem isProper_of_ofTokens {ts : List Token} {e : Constraint} (hts : ∀ t ∈ ts, t.IsProper)
    (h : ofTokens ts = .ok e) : e.IsProper := by
  obtain ⟨phrase, rfl, rfl⟩ := ofTokens_eq_ok_iff.1 h
  exact phrase.isProper_tree hts

end Proper

end Constraint

open Constraint

theorem trim_eq_self {c d : Char} {cs : List Char} (hc : isBlank c = false)
    (hlast : (c :: cs).getLast? = some d) (hd : isBlank d = false) :
    Text.trim (c :: cs) = c :: cs := by
  have hreverse : (c :: cs).reverse.head? = some d := by rw [List.head?_reverse, hlast]
  obtain ⟨rest, hrest⟩ : ∃ rest, (c :: cs).reverse = d :: rest := by
    cases hlist : (c :: cs).reverse with
    | nil => simp [hlist] at hreverse
    | cons x rest =>
        rw [hlist] at hreverse
        exact ⟨rest, by rw [Option.some.inj hreverse]⟩
  rw [Text.trim, Text.trimStart, List.dropWhile_cons_of_neg (by simp [hc]), Text.trimEnd, hrest,
    List.dropWhile_cons_of_neg (by simp [hd]), ← hrest, List.reverse_reverse]

/-- **A constraint line** with a proper expression. -/
def goBuildLine (e : Constraint) : String :=
  "//go:build " ++ e.display

theorem trim_goBuildLine {e : Constraint} (h : e.IsProper) :
    Text.trim (goBuildLine e).toList = (goBuildLine e).toList := by
  obtain ⟨d, hlast, hd⟩ := getLast?_display h
  have hline : (goBuildLine e).toList = '/' :: ("/go:build ".toList ++ e.display.toList) := by
    simp [goBuildLine]
  rw [hline]
  refine trim_eq_self (by decide) (d := d) ?_ hd
  rw [← List.cons_append, List.getLast?_append, hlast]
  rfl

/-- A constraint line has the mark in front of the expression. -/
theorem isPrefixOf?_goBuildLine (e : Constraint) :
    goBuildMark.toList.isPrefixOf? (goBuildLine e).toList = some (' ' :: e.display.toList) := by
  have hline : (goBuildLine e).toList = goBuildMark.toList ++ ' ' :: e.display.toList := by
    simp [goBuildLine, goBuildMark]
  rw [hline]
  exact List.isPrefixOf?_eq_some_iff_append_eq.2 rfl

theorem parseGoBuild_written {e : Constraint} (h : e.IsProper) :
    parseGoBuild (goBuildLine e) = .ok e.regrouped := by
  rw [parseGoBuild, trim_goBuildLine h, isPrefixOf?_goBuildLine]
  dsimp only
  rw [tokens_space, tokens_display h]
  exact ofTokens_written e

/-- **Expressions that are read** have valid tags only. -/
theorem isProper_of_parseGoBuild {line : String} {e : Constraint}
    (h : parseGoBuild line = .ok e) : e.IsProper := by
  rw [parseGoBuild] at h
  split at h
  · cases h
  next text htext =>
    cases htokens : tokens text with
    | error fault => simp [htokens, Except.bind] at h
    | ok ts =>
        rw [htokens] at h
        exact isProper_of_ofTokens (isProper_of_tokens htokens) h

/-- A proper expression is read back with its meaning and its written form. -/
theorem exists_parseGoBuild {e : Constraint} (h : e.IsProper) :
    ∃ e', parseGoBuild (goBuildLine e) = .ok e' ∧
      (∀ enabled, e'.eval enabled = e.eval enabled) ∧ e'.display = e.display :=
  ⟨e.regrouped, parseGoBuild_written h, (alike_regrouped e).eval, (alike_regrouped e).display⟩

/-- **The round trip of constraints.** A proper expression that is written as a constraint line
is read from it with the same meaning and the same written form, and every line that is read
means the same as the line that its expression is written as. -/
theorem parseGoBuild_display :
    (∀ e : Constraint, e.IsProper →
      ∃ e', parseGoBuild ("//go:build " ++ e.display) = .ok e' ∧
        (∀ enabled, e'.eval enabled = e.eval enabled) ∧ e'.display = e.display) ∧
    ∀ line e, parseGoBuild line = .ok e →
      ∃ e', parseGoBuild ("//go:build " ++ e.display) = .ok e' ∧
        (∀ enabled, e'.eval enabled = e.eval enabled) ∧ e'.display = e.display :=
  ⟨fun _ h => exists_parseGoBuild h,
    fun _ _ h => exists_parseGoBuild (isProper_of_parseGoBuild h)⟩

/-- Conjuncts that are grouped to the right, and a line with more parentheses than it needs. -/
theorem parseGoBuild_display_and_not_or :
    ((Constraint.and (.tag "a") (.and (.not (.or (.tag "b") (.tag "c"))) (.tag "d"))).IsProper ∧
      ∃ e', parseGoBuild ("//go:build " ++
          (Constraint.and (.tag "a") (.and (.not (.or (.tag "b") (.tag "c"))) (.tag "d"))).display) =
            .ok e' ∧
        (∀ enabled, e'.eval enabled = (Constraint.and (.tag "a")
          (.and (.not (.or (.tag "b") (.tag "c"))) (.tag "d"))).eval enabled) ∧
        e'.display = "a && !(b || c) && d") ∧
    (parseGoBuild "//go:build !(a||(b))\t&& c" =
        .ok (.and (.not (.or (.tag "a") (.tag "b"))) (.tag "c")) ∧
      ∃ e', parseGoBuild "//go:build !(a || b) && c" = .ok e' ∧
        (∀ enabled, e'.eval enabled =
          (Constraint.and (.not (.or (.tag "a") (.tag "b"))) (.tag "c")).eval enabled) ∧
        e'.display = "!(a || b) && c") := by
  have hproper : (Constraint.and (.tag "a")
      (.and (.not (.or (.tag "b") (.tag "c"))) (.tag "d"))).IsProper := by decide
  have hread : parseGoBuild "//go:build !(a||(b))\t&& c" =
      .ok (.and (.not (.or (.tag "a") (.tag "b"))) (.tag "c")) := by cbv
  exact ⟨⟨hproper, parseGoBuild_display.1 _ hproper⟩, hread, parseGoBuild_display.2 _ _ hread⟩

end GoPlanner
