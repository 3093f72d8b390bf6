import GoPlanner.Constraint.GoBuild
import Mathlib.Data.List.Basic

/-!
# Tokens of the Written Form

The written form of an expression is cut into the tokens that it was put together from. The
spaces in it separate, and where a tag is written no character of a tag follows it, so no tag
runs into the next token.

## Main definitions

* `Constraint.tags`, `Constraint.IsProper`: the tags of an expression, and when all are valid.
* `Constraint.written`: the tokens of the written form.
* `Constraint.Lexes`: a text with its tokens, whatever follows it.

## Main results

* `Constraint.lexes_display`: the tokens of the written form.
* `Constraint.isProper_of_tokens`: the tags among tokens are valid.
* `Constraint.mem_display`: the characters of the written form.
-/

namespace GoPlanner

namespace Constraint

/-- **The tags** of an expression. -/
def tags : Constraint → List String
  | tag name => [name]
  | not inner => inner.tags
  | and left right => left.tags ++ right.tags
  | or left right => left.tags ++ right.tags

/-- **A proper expression** has valid tags only. -/
def IsProper (e : Constraint) : Prop :=
  ∀ name ∈ e.tags, isValidTag name = true

instance (e : Constraint) : Decidable e.IsProper :=
  inferInstanceAs (Decidable (∀ name ∈ e.tags, isValidTag name = true))

/-- Tokens, in parentheses if the flag is set. -/
def bracketed (parens : Bool) (ts : List Token) : List Token :=
  if parens then .opening :: (ts ++ [.closing]) else ts

/-- **The tokens of the written form.** -/
def written : Constraint → List Token
  | tag name => [.tag name]
  | not inner => .not :: bracketed inner.isBinary inner.written
  | and left right =>
    bracketed left.isOr left.written ++ .and :: bracketed right.isOr right.written
  | or left right => left.written ++ .or :: right.written

variable {e left right : Constraint} {name : String} {c : Char} {cs rest : List Char}
  {ts us : List Token}

theorem isProper_tag : (tag name).IsProper ↔ isValidTag name = true := by
  simp [IsProper, tags]

theorem isProper_not : (not e).IsProper ↔ e.IsProper :=
  Iff.rfl

theorem isProper_and : (and left right).IsProper ↔ left.IsProper ∧ right.IsProper := by
  simp [IsProper, tags, or_imp, forall_and]

theorem isProper_or : (or left right).IsProper ↔ left.IsProper ∧ right.IsProper := by
  simp [IsProper, tags, or_imp, forall_and]

/-! ### Characters -/

/-- The characters of the written form besides those of tags. -/
def signs : List Char :=
  [' ', '!', '&', '|', '(', ')']

/-- Blanks are no characters of tags. -/
theorem isTagChar_of_isBlank (h : isBlank c = true) : isTagChar c = false := by
  have hcodes : c.toNat ∈ [9, 10, 11, 12, 13, 0x20, 0x85, 0xA0, 0x1680, 0x2000, 0x2001, 0x2002,
      0x2003, 0x2004, 0x2005, 0x2006, 0x2007, 0x2008, 0x2009, 0x200A, 0x2028, 0x2029, 0x202F,
      0x205F, 0x3000] := by
    simp only [isBlank, Bool.or_eq_true, Bool.and_eq_true, decide_eq_true_eq, beq_iff_eq] at h
    simp only [List.mem_cons, List.not_mem_nil, or_false]
    omega
  have hall : ∀ n ∈ [9, 10, 11, 12, 13, 0x20, 0x85, 0xA0, 0x1680, 0x2000, 0x2001, 0x2002, 0x2003,
      0x2004, 0x2005, 0x2006, 0x2007, 0x2008, 0x2009, 0x200A, 0x2028, 0x2029, 0x202F, 0x205F,
      0x3000], isTagChar (Char.ofNat n) = false := by
    decide +kernel
  rw [← Char.ofNat_toNat c]
  exact hall _ hcodes

/-- Signs are no characters of tags. -/
theorem isTagChar_of_mem_signs (h : c ∈ signs) : isTagChar c = false := by
  have hall : signs.all (fun c => !isTagChar c) = true := by decide +kernel
  simpa using List.all_eq_true.1 hall c h

theorem isTagChar_tab : isTagChar '\t' = false := by
  decide +kernel

/-- A valid tag has a first character. -/
theorem exists_cons_of_isValidTag (h : isValidTag name = true) :
    ∃ c cs, name.toList = c :: cs ∧ ∀ d ∈ c :: cs, isTagChar d = true := by
  rw [isValidTag, Bool.and_eq_true, Bool.not_eq_true', List.all_eq_true] at h
  obtain ⟨hne, hall⟩ := h
  cases hname : name.toList with
  | nil => simp [hname] at hne
  | cons c cs => exact ⟨c, cs, rfl, hname ▸ hall⟩

/-- The characters of a text in parentheses are those of the text, and signs. -/
theorem mem_enclosed {parens : Bool} {text : String} (h : c ∈ (enclosed parens text).toList) :
    c ∈ text.toList ∨ c ∈ signs := by
  have hparens : ∀ d ∈ "(".toList ++ ")".toList, d ∈ signs := by simp [signs]
  cases parens with
  | false => exact Or.inl h
  | true =>
      simp only [enclosed, if_true, String.toList_append, List.mem_append] at h hparens
      rcases h with (h | h) | h
      · exact Or.inr (hparens c (Or.inl h))
      · exact Or.inl h
      · exact Or.inr (hparens c (Or.inr h))

/-- **The characters of the written form** are those of its tags, and signs. -/
theorem mem_display (h : e.IsProper) (hc : c ∈ e.display.toList) :
    isTagChar c = true ∨ c ∈ signs := by
  have hsigns : ∀ d ∈ "!".toList ++ " && ".toList ++ " || ".toList, d ∈ signs := by simp [signs]
  simp only [List.mem_append] at hsigns
  induction e with
  | tag name =>
      obtain ⟨d, ds, hname, hall⟩ := exists_cons_of_isValidTag (isProper_tag.1 h)
      rw [display, hname] at hc
      exact Or.inl (hall c hc)
  | not inner ih =>
      rw [display, String.toList_append, List.mem_append] at hc
      rcases hc with hc | hc
      · exact Or.inr (hsigns c (Or.inl (Or.inl hc)))
      · exact (mem_enclosed hc).elim (ih h) Or.inr
  | and left right ihl ihr =>
      obtain ⟨hl, hr⟩ := isProper_and.1 h
      simp only [display, String.toList_append, List.mem_append] at hc
      rcases hc with (hc | hc) | hc
      · exact (mem_enclosed hc).elim (ihl hl) Or.inr
      · exact Or.inr (hsigns c (Or.inl (Or.inr hc)))
      · exact (mem_enclosed hc).elim (ihr hr) Or.inr
  | or left right ihl ihr =>
      obtain ⟨hl, hr⟩ := isProper_or.1 h
      simp only [display, String.toList_append, List.mem_append] at hc
      rcases hc with (hc | hc) | hc
      · exact ihl hl hc
      · exact Or.inr (hsigns c (Or.inr hc))
      · exact ihr hr hc

/-- **The written form ends** with a character that is no blank. -/
theorem getLast?_display (h : e.IsProper) :
    ∃ c, e.display.toList.getLast? = some c ∧ isBlank c = false := by
  have henclosed (parens : Bool) (text : String)
      (htext : ∃ c, text.toList.getLast? = some c ∧ isBlank c = false) :
      ∃ c, (enclosed parens text).toList.getLast? = some c ∧ isBlank c = false := by
    cases parens with
    | false => exact htext
    | true =>
        refine ⟨')', ?_, by decide⟩
        rw [enclosed, if_pos rfl, String.toList_append, List.getLast?_append]
        rfl
  have happend {a b : String} (hb : ∃ c, b.toList.getLast? = some c ∧ isBlank c = false) :
      ∃ c, (a ++ b).toList.getLast? = some c ∧ isBlank c = false := by
    obtain ⟨c, hlast, hc⟩ := hb
    exact ⟨c, by simp [hlast], hc⟩
  induction e with
  | tag name =>
      obtain ⟨d, ds, hname, hall⟩ := exists_cons_of_isValidTag (isProper_tag.1 h)
      refine ⟨(d :: ds).getLast (by simp), ?_, ?_⟩
      · rw [display, hname, List.getLast?_eq_getLast_of_ne_nil]
      · by_contra hblank
        have htag := hall _ (List.getLast_mem (by simp))
        rw [isTagChar_of_isBlank (by simpa using hblank)] at htag
        cases htag
  | not inner ih => exact happend (henclosed _ _ (ih h))
  | and left right ihl ihr => exact happend (henclosed _ _ (ihr (isProper_and.1 h).2))
  | or left right ihl ihr => exact happend (ihr (isProper_or.1 h).2)

/-! ### Single tokens -/

theorem tokens_space (cs : List Char) : tokens (' ' :: cs) = tokens cs := by
  rw [tokens.eq_def]
  rfl

theorem tokens_and (cs : List Char) : tokens ('&' :: '&' :: cs) = (tokens cs).map (.and :: ·) := by
  rw [tokens.eq_def]
  rfl

theorem tokens_or (cs : List Char) : tokens ('|' :: '|' :: cs) = (tokens cs).map (.or :: ·) := by
  rw [tokens.eq_def]
  rfl

theorem tokens_not (cs : List Char) : tokens ('!' :: cs) = (tokens cs).map (.not :: ·) := by
  rw [tokens.eq_def]
  rfl

theorem tokens_opening (cs : List Char) : tokens ('(' :: cs) = (tokens cs).map (.opening :: ·) := by
  rw [tokens.eq_def]
  rfl

theorem tokens_closing (cs : List Char) : tokens (')' :: cs) = (tokens cs).map (.closing :: ·) := by
  rw [tokens.eq_def]
  rfl

/-- A character of a tag starts the longest tag that there is. -/
theorem tokens_tagChar (hc : isTagChar c = true) (cs : List Char) :
    tokens (c :: cs) = (tokens (cs.dropWhile isTagChar)).map
      (.tag (String.ofList (c :: cs.takeWhile isTagChar)) :: ·) := by
  have hsigns : c ∉ signs := by
    intro h
    rw [isTagChar_of_mem_signs h] at hc
    cases hc
  have htab : c ≠ '\t' := by
    rintro rfl
    rw [isTagChar_tab] at hc
    cases hc
  simp only [signs, List.mem_cons, List.not_mem_nil, or_false, not_or] at hsigns
  obtain ⟨hspace, hnot, hand, hor, hopening, hclosing⟩ := hsigns
  rw [tokens.eq_def]
  split
  · rename_i heq
    cases heq
  · rename_i heq
    exact absurd (List.cons.inj heq).1 hand
  · rename_i heq
    exact absurd (List.cons.inj heq).1 hor
  · rename_i heq
    obtain ⟨rfl, rfl⟩ := List.cons.inj heq
    simp [hspace, hnot, hand, hor, hopening, hclosing, htab, hc]

/-! ### Texts with their tokens -/

/-- A text goes on with no character of a tag. -/
def EndsTag (rest : List Char) : Prop :=
  ∀ c ∈ rest.head?, isTagChar c = false

theorem endsTag_nil : EndsTag [] := by
  simp [EndsTag]

theorem endsTag_cons (h : c ∈ signs) : EndsTag (c :: cs) := by
  intro d hd
  obtain rfl : c = d := by simpa using hd
  exact isTagChar_of_mem_signs h

/-- **A text with its tokens.** They come first, whatever follows the text. -/
def Lexes (cs : List Char) (ts : List Token) : Prop :=
  ∀ rest, EndsTag rest → tokens (cs ++ rest) = (tokens rest).map (ts ++ ·)

/-- A valid tag is one token. -/
theorem lexes_tag (h : isValidTag name = true) : Lexes name.toList [.tag name] := by
  intro rest hrest
  obtain ⟨c, cs, hname, hall⟩ := exists_cons_of_isValidTag h
  have hdrop : (cs ++ rest).dropWhile isTagChar = rest := by
    rw [List.dropWhile_append_of_pos fun d hd => hall d (List.mem_cons_of_mem _ hd)]
    cases rest with
    | nil => rfl
    | cons d rest => rw [List.dropWhile_cons_of_neg (by simp [hrest d (by simp)])]
  have htake : (cs ++ rest).takeWhile isTagChar = cs := by
    rw [List.takeWhile_append_of_pos fun d hd => hall d (List.mem_cons_of_mem _ hd)]
    cases rest with
    | nil => simp
    | cons d rest => rw [List.takeWhile_cons_of_neg (by simp [hrest d (by simp)]), List.append_nil]
  rw [hname, List.cons_append, tokens_tagChar (hall c List.mem_cons_self), hdrop, htake, ← hname,
    String.ofList_toList]
  rfl

theorem map_map_append (r : Except ConstraintError (List Token)) (ts us : List Token) :
    (r.map (us ++ ·)).map (ts ++ ·) = r.map ((ts ++ us) ++ ·) := by
  cases r with
  | error e => rfl
  | ok vs => simp [Except.map]

/-- **Texts one after the other** have their tokens one after the other. The second one has to
end a tag at the end of the first. -/
theorem Lexes.append (h : Lexes cs ts) {ds : List Char} (h' : Lexes ds us)
    (hends : ∀ rest, EndsTag (ds ++ rest)) : Lexes (cs ++ ds) (ts ++ us) := by
  intro rest hrest
  rw [List.append_assoc, h _ (hends rest), h' rest hrest, map_map_append]

/-- A text in parentheses. -/
theorem Lexes.enclosed {text : String} (h : Lexes text.toList ts) (parens : Bool) :
    Lexes (Constraint.enclosed parens text).toList (bracketed parens ts) := by
  cases parens with
  | false => exact h
  | true =>
      intro rest hrest
      have htext : (Constraint.enclosed true text).toList ++ rest =
          '(' :: (text.toList ++ (')' :: rest)) := by
        simp [Constraint.enclosed]
      rw [htext, tokens_opening, h _ (endsTag_cons (by decide)), tokens_closing]
      cases tokens rest with
      | error e => rfl
      | ok vs => simp [Except.map, bracketed]

/-- **The tokens of the written form.** -/
theorem lexes_display (h : e.IsProper) : Lexes e.display.toList e.written := by
  have hoperator {sign : String} {t : Token} {cs : List Char} {ts : List Token} (h : Lexes cs ts)
      (hsign : ∀ rest, tokens (sign.toList ++ rest) = (tokens rest).map (t :: ·)) :
      Lexes (sign.toList ++ cs) (t :: ts) := by
    intro rest hrest
    rw [List.append_assoc, hsign, h rest hrest]
    exact map_map_append _ [t] ts
  have hand (rest : List Char) : tokens (" && ".toList ++ rest) = (tokens rest).map (.and :: ·) := by
    have htext : " && ".toList ++ rest = ' ' :: '&' :: '&' :: ' ' :: rest := rfl
    rw [htext, tokens_space, tokens_and, tokens_space]
  have hor (rest : List Char) : tokens (" || ".toList ++ rest) = (tokens rest).map (.or :: ·) := by
    have htext : " || ".toList ++ rest = ' ' :: '|' :: '|' :: ' ' :: rest := rfl
    rw [htext, tokens_space, tokens_or, tokens_space]
  induction e with
  | tag name => exact lexes_tag (isProper_tag.1 h)
  | not inner ih =>
      rw [display, String.toList_append]
      exact hoperator ((ih h).enclosed _) tokens_not
  | and left right ihl ihr =>
      obtain ⟨hl, hr⟩ := isProper_and.1 h
      rw [display, String.append_assoc, String.toList_append, String.toList_append]
      exact ((ihl hl).enclosed _).append (hoperator ((ihr hr).enclosed _) hand)
        fun rest => endsTag_cons (by decide)
  | or left right ihl ihr =>
      obtain ⟨hl, hr⟩ := isProper_or.1 h
      rw [display, String.append_assoc, String.toList_append, String.toList_append]
      exact (ihl hl).append (hoperator (ihr hr) hor) fun rest => endsTag_cons (by decide)

theorem tokens_display (h : e.IsProper) : tokens e.display.toList = .ok e.written := by
  have hlexes := lexes_display h [] endsTag_nil
  rw [List.append_nil] at hlexes
  rw [hlexes, tokens]
  simp [Except.map]

/-! ### Tags among tokens -/

/-- A token that is no tag, or a valid one. -/
def Token.IsProper : Token → Prop
  | tag name => isValidTag name = true
  | _ => True

/-- **The tags among tokens** are valid. -/
theorem isProper_of_tokens (h : tokens cs = .ok ts) : ∀ t ∈ ts, t.IsProper := by
  have hcons {cs : List Char} {t : Token} (ht : t.IsProper)
      (ih : ∀ {ts}, tokens cs = .ok ts → ∀ t ∈ ts, t.IsProper) {ts : List Token}
      (h : (tokens cs).map (t :: ·) = .ok ts) : ∀ t ∈ ts, t.IsProper := by
    cases hrest : tokens cs with
    | error e => simp [hrest, Except.map] at h
    | ok rest =>
        rw [hrest] at h
        obtain rfl := Except.ok.inj h
        exact List.forall_mem_cons.2 ⟨ht, ih hrest⟩
  fun_induction tokens cs generalizing ts with
  | case1 =>
      obtain rfl := Except.ok.inj h
      simp
  | case2 cs ih => exact hcons (t := .and) trivial ih h
  | case3 cs ih => exact hcons (t := .or) trivial ih h
  | case4 c cs _ _ hblank ih => exact ih h
  | case5 cs _ _ _ ih => exact hcons (t := .opening) trivial ih h
  | case6 cs _ _ _ _ ih => exact hcons (t := .closing) trivial ih h
  | case7 cs _ _ _ _ _ ih => exact hcons (t := .not) trivial ih h
  | case8 => cases h
  | case9 c cs _ _ _ _ _ _ _ hc ih =>
      exact hcons (by simpa [Token.IsProper, isValidTag] using hc) ih h
  | case10 => cases h

end Constraint

end GoPlanner
