import GoPlanner.Constraint.GoBuild
import Mathlib.Data.List.Basic

/-!
# Phrases of the Grammar

The grammar of constraints has four kinds of phrases,

    or   ::= and ("||" and)*
    and  ::= not ("&&" not)*
    not  ::= "!" not | atom
    atom ::= tag | "(" or ")"

and a phrase is a derivation: it has its tokens, and an expression as its tree. Every level of
the grammar reads a phrase of its kind, if one comes first, and nothing else. As no other phrase
has the same tokens, the expression that is read is the tree of the only derivation.

## Main definitions

* `Constraint.OrPhrase`, `AndPhrase`, `NotPhrase`, `AtomPhrase`: the phrases.
* `Constraint.OrPhrase.tokens`, `Constraint.OrPhrase.tree`: what a phrase derives, and its tree.
* `Constraint.Gives`: what a level of the grammar reads, and what it leaves.

## Main results

* `Constraint.OrPhrase.gives`: a phrase that comes first is read.
* `Constraint.exists_orPhrase`: what is read is a phrase.
* `Constraint.OrPhrase.eq_of_append`: a phrase that comes first is the only one.
* `Constraint.ofTokens_eq_ok_iff`: which lists of tokens are read, and as which expression.
-/

namespace GoPlanner

namespace Constraint

/-! ### The levels of the grammar -/

/-- **What a level of the grammar gives:** an expression, and the tokens behind it. -/
def Gives {fits : List Token → Prop}
    (r : Except ConstraintError (Constraint × { rest : List Token // fits rest }))
    (e : Constraint) (rest : List Token) : Prop :=
  ∃ h, r = .ok (e, ⟨rest, h⟩)

section Levels

variable {e left right : Constraint} {ts more rest : List Token} {name : String}

/-- Something is read, so the rest is shorter. -/
theorem Gives.length_lt {r : Reading ts} (h : Gives r e rest) : rest.length < ts.length :=
  h.1

theorem gives_readAtom_tag : Gives (readAtom (.tag name :: rest)) (.tag name) rest := by
  rw [readAtom]
  exact ⟨_, rfl⟩

theorem Gives.readAtom_opening (h : Gives (readOr ts) e (.closing :: rest)) :
    Gives (readAtom (.opening :: ts)) e rest := by
  obtain ⟨hlt, h⟩ := h
  rw [readAtom, h]
  exact ⟨_, rfl⟩

/-- **An atom is read** from a tag or an opening parenthesis. -/
theorem Gives.of_readAtom (h : Gives (readAtom ts) e rest) :
    (∃ name, ts = .tag name :: rest ∧ e = .tag name) ∨
      ∃ ts', ts = .opening :: ts' ∧ Gives (readOr ts') e (.closing :: rest) := by
  obtain ⟨hlt, h⟩ := h
  rw [readAtom.eq_def] at h
  split at h
  · cases h
  next name ts' =>
    cases h
    exact .inl ⟨name, rfl, rfl⟩
  next ts' =>
    split at h
    · cases h
    next inner more hmore hinner =>
      cases h
      exact .inr ⟨ts', rfl, hmore, hinner⟩
    · cases h
  · cases h

theorem Gives.readNot_not (h : Gives (readNot ts) e rest) :
    Gives (readNot (.not :: ts)) (.not e) rest := by
  obtain ⟨hlt, h⟩ := h
  rw [readNot, h]
  exact ⟨_, rfl⟩

theorem readNot_eq_readAtom (hnot : ts.head? ≠ some .not) : readNot ts = readAtom ts := by
  rw [readNot.eq_def]
  split
  · exact absurd rfl hnot
  · rfl

theorem Gives.readNot (hnot : ts.head? ≠ some .not) (h : Gives (readAtom ts) e rest) :
    Gives (Constraint.readNot ts) e rest := by
  rwa [readNot_eq_readAtom hnot]

/-- **A negation is read** from an exclamation mark, or it is an atom. -/
theorem Gives.of_readNot (h : Gives (Constraint.readNot ts) e rest) :
    (∃ ts' inner, ts = .not :: ts' ∧ e = .not inner ∧ Gives (Constraint.readNot ts') inner rest) ∨
      Gives (readAtom ts) e rest := by
  by_cases hnot : ts.head? = some .not
  · obtain ⟨ts', rfl⟩ := List.head?_eq_some_iff.1 hnot
    obtain ⟨hlt, h⟩ := h
    rw [Constraint.readNot] at h
    split at h
    · cases h
    next inner more hmore hinner =>
      cases h
      exact .inl ⟨ts', inner, rfl, rfl, hmore, hinner⟩
  · rw [readNot_eq_readAtom hnot] at h
    exact .inr h

theorem Gives.readAnd (h : Gives (Constraint.readNot ts) left more)
    (h' : Gives (readAndTail left more) e rest) : Gives (Constraint.readAnd ts) e rest := by
  obtain ⟨hlt, h⟩ := h
  obtain ⟨hle, h'⟩ := h'
  rw [Constraint.readAnd, h]
  dsimp only
  rw [h']
  exact ⟨_, rfl⟩

/-- **A conjunction is read** from its first conjunct. -/
theorem Gives.of_readAnd (h : Gives (Constraint.readAnd ts) e rest) :
    ∃ left more, Gives (Constraint.readNot ts) left more ∧
      Gives (readAndTail left more) e rest := by
  obtain ⟨hlt, h⟩ := h
  rw [Constraint.readAnd] at h
  split at h
  · cases h
  next left more hmore hleft =>
    split at h
    · cases h
    next e' rest' hrest' htail =>
      cases h
      exact ⟨left, more, ⟨hmore, hleft⟩, hrest', htail⟩

theorem Gives.readAndTail (h : Gives (Constraint.readNot ts) right more)
    (h' : Gives (Constraint.readAndTail (.and left right) more) e rest) :
    Gives (Constraint.readAndTail left (.and :: ts)) e rest := by
  obtain ⟨hlt, h⟩ := h
  obtain ⟨hle, h'⟩ := h'
  rw [Constraint.readAndTail, h]
  dsimp only
  rw [h']
  exact ⟨_, rfl⟩

theorem gives_readAndTail (left : Constraint) (h : rest.head? ≠ some .and) :
    Gives (readAndTail left rest) left rest := by
  rw [Constraint.readAndTail.eq_def]
  split
  · exact absurd rfl h
  · exact ⟨_, rfl⟩

/-- **Conjuncts are read** while there are ampersands. -/
theorem Gives.of_readAndTail (h : Gives (Constraint.readAndTail left ts) e rest) :
    (∃ ts' right more, ts = .and :: ts' ∧ Gives (Constraint.readNot ts') right more ∧
      Gives (Constraint.readAndTail (.and left right) more) e rest) ∨ e = left ∧ ts = rest := by
  by_cases hmark : ts.head? = some .and
  · obtain ⟨ts', rfl⟩ := List.head?_eq_some_iff.1 hmark
    obtain ⟨hle, h⟩ := h
    rw [Constraint.readAndTail] at h
    split at h
    · cases h
    next right more hmore hright =>
      split at h
      · cases h
      next e' rest' hrest' htail =>
        cases h
        exact .inl ⟨ts', right, more, rfl, ⟨hmore, hright⟩, hrest', htail⟩
  · obtain ⟨_, hsame⟩ := gives_readAndTail left hmark
    obtain ⟨_, h⟩ := h
    cases hsame.symm.trans h
    exact .inr ⟨rfl, rfl⟩

theorem Gives.readOr (h : Gives (Constraint.readAnd ts) left more)
    (h' : Gives (readOrTail left more) e rest) : Gives (Constraint.readOr ts) e rest := by
  obtain ⟨hlt, h⟩ := h
  obtain ⟨hle, h'⟩ := h'
  rw [Constraint.readOr, h]
  dsimp only
  rw [h']
  exact ⟨_, rfl⟩

/-- **A disjunction is read** from its first disjunct. -/
theorem Gives.of_readOr (h : Gives (Constraint.readOr ts) e rest) :
    ∃ left more, Gives (Constraint.readAnd ts) left more ∧ Gives (readOrTail left more) e rest := by
  obtain ⟨hlt, h⟩ := h
  rw [Constraint.readOr] at h
  split at h
  · cases h
  next left more hmore hleft =>
    split at h
    · cases h
    next e' rest' hrest' htail =>
      cases h
      exact ⟨left, more, ⟨hmore, hleft⟩, hrest', htail⟩

theorem Gives.readOrTail (h : Gives (Constraint.readAnd ts) right more)
    (h' : Gives (Constraint.readOrTail (.or left right) more) e rest) :
    Gives (Constraint.readOrTail left (.or :: ts)) e rest := by
  obtain ⟨hlt, h⟩ := h
  obtain ⟨hle, h'⟩ := h'
  rw [Constraint.readOrTail, h]
  dsimp only
  rw [h']
  exact ⟨_, rfl⟩

theorem gives_readOrTail (left : Constraint) (h : rest.head? ≠ some .or) :
    Gives (readOrTail left rest) left rest := by
  rw [Constraint.readOrTail.eq_def]
  split
  · exact absurd rfl h
  · exact ⟨_, rfl⟩

/-- **Disjuncts are read** while there are bars. -/
theorem Gives.of_readOrTail (h : Gives (Constraint.readOrTail left ts) e rest) :
    (∃ ts' right more, ts = .or :: ts' ∧ Gives (Constraint.readAnd ts') right more ∧
      Gives (Constraint.readOrTail (.or left right) more) e rest) ∨ e = left ∧ ts = rest := by
  by_cases hmark : ts.head? = some .or
  · obtain ⟨ts', rfl⟩ := List.head?_eq_some_iff.1 hmark
    obtain ⟨hle, h⟩ := h
    rw [Constraint.readOrTail] at h
    split at h
    · cases h
    next right more hmore hright =>
      split at h
      · cases h
      next e' rest' hrest' htail =>
        cases h
        exact .inl ⟨ts', right, more, rfl, ⟨hmore, hright⟩, hrest', htail⟩
  · obtain ⟨_, hsame⟩ := gives_readOrTail left hmark
    obtain ⟨_, h⟩ := h
    cases hsame.symm.trans h
    exact .inr ⟨rfl, rfl⟩

end Levels

/-! ### Phrases -/

mutual

/-- **Disjunctions:** `and ("||" and)*`. -/
inductive OrPhrase where
  /-- A conjunction, and the disjuncts behind it. -/
  | mk (first : AndPhrase) (more : OrTail)

/-- The disjuncts behind a first one. -/
inductive OrTail where
  /-- No more disjuncts. -/
  | nil
  /-- Two bars and a conjunction, and the disjuncts behind it. -/
  | cons (next : AndPhrase) (more : OrTail)

/-- **Conjunctions:** `not ("&&" not)*`. -/
inductive AndPhrase where
  /-- A negation, and the conjuncts behind it. -/
  | mk (first : NotPhrase) (more : AndTail)

/-- The conjuncts behind a first one. -/
inductive AndTail where
  /-- No more conjuncts. -/
  | nil
  /-- Two ampersands and a negation, and the conjuncts behind it. -/
  | cons (next : NotPhrase) (more : AndTail)

/-- **Negations:** `"!" not | atom`. -/
inductive NotPhrase where
  /-- An exclamation mark and a negation. -/
  | not (inner : NotPhrase)
  /-- An atom. -/
  | atom (atom : AtomPhrase)

/-- **Atoms:** `tag | "(" or ")"`. -/
inductive AtomPhrase where
  /-- A tag. -/
  | tag (name : String)
  /-- A disjunction in parentheses. -/
  | parens (inner : OrPhrase)

end

mutual

/-- **The tokens** that a phrase derives. -/
def OrPhrase.tokens : OrPhrase → List Token
  | .mk first more => first.tokens ++ more.tokens

@[inherit_doc OrPhrase.tokens]
def OrTail.tokens : OrTail → List Token
  | .nil => []
  | .cons next more => .or :: (next.tokens ++ more.tokens)

@[inherit_doc OrPhrase.tokens]
def AndPhrase.tokens : AndPhrase → List Token
  | .mk first more => first.tokens ++ more.tokens

@[inherit_doc OrPhrase.tokens]
def AndTail.tokens : AndTail → List Token
  | .nil => []
  | .cons next more => .and :: (next.tokens ++ more.tokens)

@[inherit_doc OrPhrase.tokens]
def NotPhrase.tokens : NotPhrase → List Token
  | .not inner => .not :: inner.tokens
  | .atom atom => atom.tokens

@[inherit_doc OrPhrase.tokens]
def AtomPhrase.tokens : AtomPhrase → List Token
  | .tag name => [.tag name]
  | .parens inner => .opening :: (inner.tokens ++ [.closing])

end

mutual

/-- **The tree** of a phrase. What stands behind a first operand is added to the tree of what
stands in front of it, so operators of one kind are grouped to the left. -/
def OrPhrase.tree : OrPhrase → Constraint
  | .mk first more => more.tree first.tree

@[inherit_doc OrPhrase.tree]
def OrTail.tree : OrTail → Constraint → Constraint
  | .nil, left => left
  | .cons next more, left => more.tree (.or left next.tree)

@[inherit_doc OrPhrase.tree]
def AndPhrase.tree : AndPhrase → Constraint
  | .mk first more => more.tree first.tree

@[inherit_doc OrPhrase.tree]
def AndTail.tree : AndTail → Constraint → Constraint
  | .nil, left => left
  | .cons next more, left => more.tree (.and left next.tree)

@[inherit_doc OrPhrase.tree]
def NotPhrase.tree : NotPhrase → Constraint
  | .not inner => .not inner.tree
  | .atom atom => atom.tree

@[inherit_doc OrPhrase.tree]
def AtomPhrase.tree : AtomPhrase → Constraint
  | .tag name => .tag name
  | .parens inner => inner.tree

end

section Phrases

/-- **The disjuncts end** where no other operator follows. -/
def EndsOr (rest : List Token) : Prop :=
  rest.head? ≠ some .or ∧ rest.head? ≠ some .and

theorem endsOr_nil : EndsOr [] := by
  simp [EndsOr]

theorem endsOr_closing (rest : List Token) : EndsOr (.closing :: rest) := by
  simp [EndsOr]

/-- No conjunct follows where disjuncts do. -/
theorem OrTail.head?_ne_and (more : OrTail) {rest : List Token} (hrest : EndsOr rest) :
    (more.tokens ++ rest).head? ≠ some .and := by
  cases more with
  | nil => exact hrest.2
  | cons next more => simp [OrTail.tokens]

theorem AtomPhrase.head?_ne_not (atom : AtomPhrase) (rest : List Token) :
    (atom.tokens ++ rest).head? ≠ some .not := by
  cases atom <;> simp [AtomPhrase.tokens]

/-! ### Phrases are read -/

mutual

/-- **A disjunction** that comes first is read as its tree. -/
theorem OrPhrase.gives (phrase : OrPhrase) {rest : List Token} (hrest : EndsOr rest) :
    Gives (readOr (phrase.tokens ++ rest)) phrase.tree rest := by
  match phrase with
  | .mk first more =>
    rw [OrPhrase.tokens, OrPhrase.tree, List.append_assoc]
    exact (first.gives (more.head?_ne_and hrest)).readOr (more.gives _ hrest)

/-- Disjuncts are added to what stands in front of them. -/
theorem OrTail.gives (more : OrTail) (left : Constraint) {rest : List Token}
    (hrest : EndsOr rest) : Gives (readOrTail left (more.tokens ++ rest)) (more.tree left) rest := by
  match more with
  | .nil => exact gives_readOrTail left hrest.1
  | .cons next more =>
    rw [OrTail.tokens, OrTail.tree, List.cons_append, List.append_assoc]
    exact (next.gives (more.head?_ne_and hrest)).readOrTail (more.gives _ hrest)

/-- **A conjunction** that comes first is read as its tree. -/
theorem AndPhrase.gives (phrase : AndPhrase) {rest : List Token}
    (hrest : rest.head? ≠ some .and) : Gives (readAnd (phrase.tokens ++ rest)) phrase.tree rest := by
  match phrase with
  | .mk first more =>
    rw [AndPhrase.tokens, AndPhrase.tree, List.append_assoc]
    exact (first.gives _).readAnd (more.gives _ hrest)

/-- Conjuncts are added to what stands in front of them. -/
theorem AndTail.gives (more : AndTail) (left : Constraint) {rest : List Token}
    (hrest : rest.head? ≠ some .and) :
    Gives (readAndTail left (more.tokens ++ rest)) (more.tree left) rest := by
  match more with
  | .nil => exact gives_readAndTail left hrest
  | .cons next more =>
    rw [AndTail.tokens, AndTail.tree, List.cons_append, List.append_assoc]
    exact (next.gives _).readAndTail (more.gives _ hrest)

/-- **A negation** that comes first is read as its tree. -/
theorem NotPhrase.gives (phrase : NotPhrase) (rest : List Token) :
    Gives (readNot (phrase.tokens ++ rest)) phrase.tree rest := by
  match phrase with
  | .not inner => exact (inner.gives rest).readNot_not
  | .atom atom => exact (atom.gives rest).readNot (atom.head?_ne_not rest)

/-- **An atom** that comes first is read as its tree. -/
theorem AtomPhrase.gives (atom : AtomPhrase) (rest : List Token) :
    Gives (readAtom (atom.tokens ++ rest)) atom.tree rest := by
  match atom with
  | .tag name => exact gives_readAtom_tag
  | .parens inner =>
    rw [AtomPhrase.tokens, AtomPhrase.tree, List.cons_append, List.append_assoc]
    exact (inner.gives (endsOr_closing rest)).readAtom_opening

end

/-! ### What is read is a phrase -/

mutual

/-- **What is read as a disjunction** is one. -/
theorem exists_orPhrase {ts rest : List Token} {e : Constraint} (h : Gives (readOr ts) e rest) :
    ∃ phrase : OrPhrase, ts = phrase.tokens ++ rest ∧ phrase.tree = e := by
  obtain ⟨left, more, hleft, hmore⟩ := h.of_readOr
  obtain ⟨first, hts, rfl⟩ := exists_andPhrase hleft
  have hshorter := hleft.length_lt
  obtain ⟨tail, rfl, rfl⟩ := exists_orTail hmore
  exact ⟨.mk first tail, by rw [hts, OrPhrase.tokens, List.append_assoc], by rw [OrPhrase.tree]⟩
termination_by (ts.length, 3)

/-- What is read behind a disjunct are disjuncts. -/
theorem exists_orTail {ts rest : List Token} {e left : Constraint}
    (h : Gives (readOrTail left ts) e rest) :
    ∃ tail : OrTail, ts = tail.tokens ++ rest ∧ tail.tree left = e := by
  rcases h.of_readOrTail with ⟨ts', right, more, rfl, hright, hmore⟩ | ⟨rfl, rfl⟩
  · obtain ⟨next, hts, rfl⟩ := exists_andPhrase hright
    have hshorter := hright.length_lt
    obtain ⟨tail, rfl, rfl⟩ := exists_orTail hmore
    exact ⟨.cons next tail, by rw [hts, OrTail.tokens, List.cons_append, List.append_assoc],
      by rw [OrTail.tree]⟩
  · exact ⟨.nil, rfl, rfl⟩
termination_by (ts.length, 4)

/-- **What is read as a conjunction** is one. -/
theorem exists_andPhrase {ts rest : List Token} {e : Constraint} (h : Gives (readAnd ts) e rest) :
    ∃ phrase : AndPhrase, ts = phrase.tokens ++ rest ∧ phrase.tree = e := by
  obtain ⟨left, more, hleft, hmore⟩ := h.of_readAnd
  obtain ⟨first, hts, rfl⟩ := exists_notPhrase hleft
  have hshorter := hleft.length_lt
  obtain ⟨tail, rfl, rfl⟩ := exists_andTail hmore
  exact ⟨.mk first tail, by rw [hts, AndPhrase.tokens, List.append_assoc], by rw [AndPhrase.tree]⟩
termination_by (ts.length, 2)

/-- What is read behind a conjunct are conjuncts. -/
theorem exists_andTail {ts rest : List Token} {e left : Constraint}
    (h : Gives (readAndTail left ts) e rest) :
    ∃ tail : AndTail, ts = tail.tokens ++ rest ∧ tail.tree left = e := by
  rcases h.of_readAndTail with ⟨ts', right, more, rfl, hright, hmore⟩ | ⟨rfl, rfl⟩
  · obtain ⟨next, hts, rfl⟩ := exists_notPhrase hright
    have hshorter := hright.length_lt
    obtain ⟨tail, rfl, rfl⟩ := exists_andTail hmore
    exact ⟨.cons next tail, by rw [hts, AndTail.tokens, List.cons_append, List.append_assoc],
      by rw [AndTail.tree]⟩
  · exact ⟨.nil, rfl, rfl⟩
termination_by (ts.length, 4)

/-- **What is read as a negation** is one. -/
theorem exists_notPhrase {ts rest : List Token} {e : Constraint} (h : Gives (readNot ts) e rest) :
    ∃ phrase : NotPhrase, ts = phrase.tokens ++ rest ∧ phrase.tree = e := by
  rcases h.of_readNot with ⟨ts', inner, rfl, rfl, hinner⟩ | hatom
  · obtain ⟨phrase, rfl, rfl⟩ := exists_notPhrase hinner
    exact ⟨.not phrase, rfl, rfl⟩
  · obtain ⟨atom, rfl, rfl⟩ := exists_atomPhrase hatom
    exact ⟨.atom atom, rfl, rfl⟩
termination_by (ts.length, 1)

/-- **What is read as an atom** is one. -/
theorem exists_atomPhrase {ts rest : List Token} {e : Constraint} (h : Gives (readAtom ts) e rest) :
    ∃ phrase : AtomPhrase, ts = phrase.tokens ++ rest ∧ phrase.tree = e := by
  rcases h.of_readAtom with ⟨name, rfl, rfl⟩ | ⟨ts', rfl, hinner⟩
  · exact ⟨.tag name, rfl, rfl⟩
  · obtain ⟨phrase, rfl, rfl⟩ := exists_orPhrase hinner
    exact ⟨.parens phrase, by simp [AtomPhrase.tokens], by rw [AtomPhrase.tree]⟩
termination_by (ts.length, 0)

end

/-! ### No other phrase has the same tokens -/

mutual

/-- **A disjunction** that comes first is the only one. -/
theorem OrPhrase.eq_of_append (phrase phrase' : OrPhrase) {rest rest' : List Token}
    (hrest : EndsOr rest) (hrest' : EndsOr rest')
    (h : phrase.tokens ++ rest = phrase'.tokens ++ rest') :
    phrase = phrase' ∧ rest = rest' := by
  match phrase, phrase' with
  | .mk first more, .mk first' more' =>
    rw [OrPhrase.tokens, OrPhrase.tokens, List.append_assoc, List.append_assoc] at h
    obtain ⟨rfl, hmore⟩ := first.eq_of_append first' (more.head?_ne_and hrest)
      (more'.head?_ne_and hrest') h
    obtain ⟨rfl, hrests⟩ := more.eq_of_append more' hrest hrest' hmore
    exact ⟨rfl, hrests⟩

theorem OrTail.eq_of_append (more more' : OrTail) {rest rest' : List Token}
    (hrest : EndsOr rest) (hrest' : EndsOr rest')
    (h : more.tokens ++ rest = more'.tokens ++ rest') : more = more' ∧ rest = rest' := by
  match more, more' with
  | .nil, .nil => exact ⟨rfl, h⟩
  | .nil, .cons next' more' => exact absurd (congrArg List.head? h) hrest.1
  | .cons next more, .nil => exact absurd (congrArg List.head? h.symm) hrest'.1
  | .cons next more, .cons next' more' =>
    rw [OrTail.tokens, OrTail.tokens, List.cons_append, List.cons_append, List.append_assoc,
      List.append_assoc, List.cons.injEq] at h
    obtain ⟨rfl, hmore⟩ := next.eq_of_append next' (more.head?_ne_and hrest)
      (more'.head?_ne_and hrest') h.2
    obtain ⟨rfl, hrests⟩ := more.eq_of_append more' hrest hrest' hmore
    exact ⟨rfl, hrests⟩

/-- **A conjunction** that comes first is the only one. -/
theorem AndPhrase.eq_of_append (phrase phrase' : AndPhrase) {rest rest' : List Token}
    (hrest : rest.head? ≠ some .and) (hrest' : rest'.head? ≠ some .and)
    (h : phrase.tokens ++ rest = phrase'.tokens ++ rest') : phrase = phrase' ∧ rest = rest' := by
  match phrase, phrase' with
  | .mk first more, .mk first' more' =>
    rw [AndPhrase.tokens, AndPhrase.tokens, List.append_assoc, List.append_assoc] at h
    obtain ⟨rfl, hmore⟩ := first.eq_of_append first' h
    obtain ⟨rfl, hrests⟩ := more.eq_of_append more' hrest hrest' hmore
    exact ⟨rfl, hrests⟩

theorem AndTail.eq_of_append (more more' : AndTail) {rest rest' : List Token}
    (hrest : rest.head? ≠ some .and) (hrest' : rest'.head? ≠ some .and)
    (h : more.tokens ++ rest = more'.tokens ++ rest') : more = more' ∧ rest = rest' := by
  match more, more' with
  | .nil, .nil => exact ⟨rfl, h⟩
  | .nil, .cons next' more' => exact absurd (congrArg List.head? h) hrest
  | .cons next more, .nil => exact absurd (congrArg List.head? h.symm) hrest'
  | .cons next more, .cons next' more' =>
    rw [AndTail.tokens, AndTail.tokens, List.cons_append, List.cons_append, List.append_assoc,
      List.append_assoc, List.cons.injEq] at h
    obtain ⟨rfl, hmore⟩ := next.eq_of_append next' h.2
    obtain ⟨rfl, hrests⟩ := more.eq_of_append more' hrest hrest' hmore
    exact ⟨rfl, hrests⟩

/-- **A negation** that comes first is the only one. -/
theorem NotPhrase.eq_of_append (phrase phrase' : NotPhrase) {rest rest' : List Token}
    (h : phrase.tokens ++ rest = phrase'.tokens ++ rest') : phrase = phrase' ∧ rest = rest' := by
  match phrase, phrase' with
  | .not inner, .not inner' =>
    obtain ⟨rfl, hrests⟩ := inner.eq_of_append inner' (List.cons.inj h).2
    exact ⟨rfl, hrests⟩
  | .not inner, .atom atom =>
    exact absurd (congrArg List.head? h.symm) (atom.head?_ne_not rest')
  | .atom atom, .not inner =>
    exact absurd (congrArg List.head? h) (atom.head?_ne_not rest)
  | .atom atom, .atom atom' =>
    obtain ⟨rfl, hrests⟩ := atom.eq_of_append atom' h
    exact ⟨rfl, hrests⟩

/-- **An atom** that comes first is the only one. -/
theorem AtomPhrase.eq_of_append (atom atom' : AtomPhrase) {rest rest' : List Token}
    (h : atom.tokens ++ rest = atom'.tokens ++ rest') : atom = atom' ∧ rest = rest' := by
  match atom, atom' with
  | .tag name, .tag name' =>
    obtain ⟨hname, hrests⟩ := List.cons.inj h
    exact ⟨by rw [Token.tag.inj hname], hrests⟩
  | .tag name, .parens inner => cases (List.cons.inj h).1
  | .parens inner, .tag name => cases (List.cons.inj h).1
  | .parens inner, .parens inner' =>
    rw [AtomPhrase.tokens, AtomPhrase.tokens, List.cons_append, List.cons_append,
      List.append_assoc, List.append_assoc, List.cons.injEq] at h
    obtain ⟨rfl, hrests⟩ := inner.eq_of_append inner' (endsOr_closing rest)
      (endsOr_closing rest') h.2
    exact ⟨rfl, (List.cons.inj hrests).2⟩

end

/-- **The grammar is unambiguous.** -/
theorem OrPhrase.tokens_injective : Function.Injective OrPhrase.tokens := fun phrase phrase' h =>
  (phrase.eq_of_append phrase' endsOr_nil endsOr_nil (by rw [h])).1

/-- **Which tokens are read:** those that can be derived, as the tree of the derivation. -/
theorem ofTokens_eq_ok_iff {ts : List Token} {e : Constraint} :
    ofTokens ts = .ok e ↔ ∃ phrase : OrPhrase, phrase.tokens = ts ∧ phrase.tree = e := by
  constructor
  · intro h
    rw [ofTokens] at h
    split at h
    · cases h
    · split at h
      · cases h
      next e' hlt hread =>
        cases h
        obtain ⟨phrase, hts, htree⟩ := exists_orPhrase ⟨hlt, hread⟩
        exact ⟨phrase, by rw [hts, List.append_nil], htree⟩
      · cases h
  · rintro ⟨phrase, rfl, rfl⟩
    have hgives := phrase.gives endsOr_nil
    rw [List.append_nil] at hgives
    obtain ⟨hlt, hread⟩ := hgives
    have hne : phrase.tokens.isEmpty = false :=
      List.isEmpty_eq_false_iff.2 (List.ne_nil_of_length_pos hlt)
    rw [ofTokens, hne, hread]
    rfl

end Phrases

end Constraint

end GoPlanner
