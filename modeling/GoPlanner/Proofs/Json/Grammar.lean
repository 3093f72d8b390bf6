import GoPlanner.Text.Json
import Mathlib.Data.List.TakeWhile

/-!
# JSON Texts and Their Values

The grammar of JSON texts, as a relation between characters and what they stand for. A text is one
value with white space around it. No text stands for two values, so all readers that keep to the
grammar agree on what they read.

The proof compares two derivations of texts that go on in any way. Strings, arrays and objects end
by themselves; only a number has to be told from what follows it.

## Main definitions

* `Json.Value`: what a text stands for.
* `Json.SpellsChars`: the characters between quotation marks, with escapes.
* `Json.Spells` and the relations beside it: the grammar.
* `Json.IsText`: a text and its value.

## Main results

* `Json.SpellsChars.eq_of_append`: strings end at their quotation mark.
* `Json.IsText.unique`: the grammar is unambiguous.
-/

namespace GoPlanner

namespace Json

/-! ### Values and strings -/

/-- **What a text stands for.** A number is kept as it is written, and the members of an object in
their order. -/
inductive Value where
  | null
  | bool (value : Bool)
  | number (text : String)
  | string (text : String)
  | array (items : List Value)
  | object (members : List (String × Value))

/-- The value of a hexadecimal digit of either case. -/
def hexValue? (c : Char) : Option Nat :=
  if '0' ≤ c ∧ c ≤ '9' then some (c.toNat - 48)
  else if 'a' ≤ c ∧ c ≤ 'f' then some (c.toNat - 87)
  else if 'A' ≤ c ∧ c ≤ 'F' then some (c.toNat - 55)
  else none

/-- The number that four hexadecimal digits stand for. -/
def unit? : List Char → Option Nat
  | [a, b, c, d] => do
    let a ← hexValue? a
    let b ← hexValue? b
    let c ← hexValue? c
    let d ← hexValue? d
    some (a * 4096 + b * 256 + c * 16 + d)
  | _ => none

/-- The character that one character behind a reverse solidus stands for. -/
def shortEscape? (c : Char) : Option Char :=
  if c = '\x22' ∨ c = '\\' ∨ c = '/' then some c
  else if c = 'b' then some '\x08'
  else if c = 'f' then some '\x0c'
  else if c = 'n' then some '\n'
  else if c = 'r' then some '\r'
  else if c = 't' then some '\t'
  else none

/-- **One character of a string:** itself, unless it has to be escaped; an escape in its short form;
or one or two units of sixteen bits. Half of a pair of units stands for no character. -/
inductive SpellsChar : List Char → Char → Prop
  | plain {c : Char} (hprinted : 32 ≤ c.toNat) (hquote : c ≠ '\x22') (hescape : c ≠ '\\') :
      SpellsChar [c] c
  | short {c d : Char} (h : shortEscape? c = some d) : SpellsChar ['\\', c] d
  | unit {digits : List Char} {c : Char} (h : unit? digits = some c.toNat) :
      SpellsChar ('\\' :: 'u' :: digits) c
  | pair {digits digits' : List Char} {high low : Nat} {c : Char}
      (hhigh : unit? digits = some high) (hlow : unit? digits' = some low)
      (hfirst : 0xD800 ≤ high ∧ high ≤ 0xDBFF) (hsecond : 0xDC00 ≤ low ∧ low ≤ 0xDFFF)
      (hc : c.toNat = 0x10000 + (high - 0xD800) * 0x400 + (low - 0xDC00)) :
      SpellsChar ('\\' :: 'u' :: (digits ++ '\\' :: 'u' :: digits')) c

/-- **The characters of a string.** -/
inductive SpellsChars : List Char → List Char → Prop
  | nil : SpellsChars [] []
  | cons {cs s rest : List Char} {c : Char} (h : SpellsChar cs c) (hrest : SpellsChars rest s) :
      SpellsChars (cs ++ rest) (c :: s)

/-! ### Numbers and white space -/

/-- White space between values and signs. -/
def isSpace (c : Char) : Bool :=
  c == ' ' || c == '\t' || c == '\n' || c == '\r'

/-- **White space.** -/
def IsGap (cs : List Char) : Prop :=
  ∀ c ∈ cs, isSpace c = true

instance (cs : List Char) : Decidable (IsGap cs) :=
  List.decidableBAll _ cs

/-- Decimal digits, at least one. -/
def IsDigits (cs : List Char) : Prop :=
  cs ≠ [] ∧ ∀ c ∈ cs, c.isDigit = true

/-- A fraction is a point with digits. -/
def IsFraction (cs : List Char) : Prop :=
  cs = [] ∨ ∃ digits, cs = '.' :: digits ∧ IsDigits digits

/-- An exponent is a letter, perhaps a sign, and digits. -/
def IsExponent (cs : List Char) : Prop :=
  cs = [] ∨ ∃ letter sign digits, cs = letter :: (sign ++ digits) ∧ letter ∈ ['e', 'E'] ∧
    sign ∈ [[], ['+'], ['-']] ∧ IsDigits digits

/-- **A number:** perhaps a minus sign, digits of which the first is no zero unless it is the only
one, a fraction, and an exponent. -/
def IsNumber (cs : List Char) : Prop :=
  ∃ sign digits fraction exponent, cs = sign ++ (digits ++ (fraction ++ exponent)) ∧
    sign ∈ [[], ['-']] ∧ IsDigits digits ∧ (digits.head? = some '0' → digits = ['0']) ∧
    IsFraction fraction ∧ IsExponent exponent

/-! ### The grammar -/

mutual

/-- **A value** without white space around it. -/
inductive Spells : List Char → Value → Prop
  | null : Spells ['n', 'u', 'l', 'l'] .null
  | yes : Spells ['t', 'r', 'u', 'e'] (.bool true)
  | no : Spells ['f', 'a', 'l', 's', 'e'] (.bool false)
  | number {cs : List Char} (h : IsNumber cs) : Spells cs (.number (String.ofList cs))
  | string {cs s : List Char} (h : SpellsChars cs s) :
      Spells ('\x22' :: (cs ++ ['\x22'])) (.string (String.ofList s))
  | emptyArray {gap : List Char} (h : IsGap gap) : Spells ('[' :: (gap ++ [']'])) (.array [])
  | array {cs : List Char} {vs : List Value} (h : SpellsItems cs vs) :
      Spells ('[' :: (cs ++ [']'])) (.array vs)
  | emptyObject {gap : List Char} (h : IsGap gap) :
      Spells ('\x7b' :: (gap ++ ['\x7d'])) (.object [])
  | object {cs : List Char} {ms : List (String × Value)} (h : SpellsMembers cs ms) :
      Spells ('\x7b' :: (cs ++ ['\x7d'])) (.object ms)

/-- **A value with white space** around it. -/
inductive SpellsItem : List Char → Value → Prop
  | mk {before cs after : List Char} {v : Value} (hbefore : IsGap before) (h : Spells cs v)
      (hafter : IsGap after) : SpellsItem (before ++ (cs ++ after)) v

/-- **The items of an array,** with commas between them. -/
inductive SpellsItems : List Char → List Value → Prop
  | one {cs : List Char} {v : Value} (h : SpellsItem cs v) : SpellsItems cs [v]
  | more {cs rest : List Char} {v : Value} {vs : List Value} (h : SpellsItem cs v)
      (hrest : SpellsItems rest vs) : SpellsItems (cs ++ ',' :: rest) (v :: vs)

/-- **A member of an object:** its name, a colon, and its value. -/
inductive SpellsMember : List Char → String × Value → Prop
  | mk {before name after cs s : List Char} {v : Value} (hbefore : IsGap before)
      (hname : SpellsChars name s) (hafter : IsGap after) (h : SpellsItem cs v) :
      SpellsMember (before ++ '\x22' :: (name ++ '\x22' :: (after ++ ':' :: cs)))
        (String.ofList s, v)

/-- **The members of an object,** with commas between them. -/
inductive SpellsMembers : List Char → List (String × Value) → Prop
  | one {cs : List Char} {m : String × Value} (h : SpellsMember cs m) : SpellsMembers cs [m]
  | more {cs rest : List Char} {m : String × Value} {ms : List (String × Value)}
      (h : SpellsMember cs m) (hrest : SpellsMembers rest ms) :
      SpellsMembers (cs ++ ',' :: rest) (m :: ms)

end

/-- **A JSON text** and its value. -/
def IsText (text : String) (v : Value) : Prop :=
  SpellsItem text.toList v

/-! ### Where strings end -/

variable {cs cs' s s' rest rest' : List Char} {c c' : Char} {v v' : Value}

theorem length_of_unit? {n : Nat} (h : unit? cs = some n) : cs.length = 4 := by
  rw [unit?.eq_def] at h
  split at h
  · rfl
  · cases h

theorem SpellsChar.exists_cons (h : SpellsChar cs c) : ∃ d rest, cs = d :: rest ∧ d ≠ '\x22' := by
  cases h with
  | plain _ hquote _ => exact ⟨_, _, rfl, hquote⟩
  | short _ => exact ⟨_, _, rfl, by decide⟩
  | unit _ => exact ⟨_, _, rfl, by decide⟩
  | pair => exact ⟨_, _, rfl, by decide⟩

/-- Units that stand for half of a pair are no characters. -/
theorem not_surrogate (c : Char) : ¬ (0xD800 ≤ c.toNat ∧ c.toNat ≤ 0xDFFF) := by
  have hvalid : c.toNat < 0xD800 ∨ 0xDFFF < c.toNat ∧ c.toNat < 0x110000 := c.valid
  omega

/-- **One character** of a string that comes first is the only one. -/
theorem SpellsChar.eq_of_append (h : SpellsChar cs c) (h' : SpellsChar cs' c')
    (heq : cs ++ rest = cs' ++ rest') : cs = cs' ∧ c = c' := by
  have hu {x d : Char} (hx : shortEscape? x = some d) : 'u' ≠ x := by
    rintro rfl
    cases hx
  -- The digits behind the letter have one length, so they are the same.
  have hdigits {ds ds' r r' : List Char} {n n' : Nat} (hd : unit? ds = some n)
      (hd' : unit? ds' = some n') (happend : ds ++ r = ds' ++ r') : ds = ds' ∧ n = n' ∧ r = r' := by
    obtain ⟨rfl, hr⟩ := List.append_inj happend
      ((length_of_unit? hd).trans (length_of_unit? hd').symm)
    exact ⟨rfl, Option.some.inj (hd.symm.trans hd'), hr⟩
  have hletter {ds ds' r r' : List Char}
      (hescapes : '\\' :: 'u' :: ds ++ r = '\\' :: 'u' :: ds' ++ r') : ds ++ r = ds' ++ r' :=
    (List.cons.inj (List.cons.inj hescapes).2).2
  cases h with
  | plain _ _ hescape =>
      cases h' with
      | plain _ _ _ =>
          obtain ⟨rfl, -⟩ := List.cons.inj heq
          exact ⟨rfl, rfl⟩
      | short _ => exact absurd (List.cons.inj heq).1 hescape
      | unit _ => exact absurd (List.cons.inj heq).1 hescape
      | pair => exact absurd (List.cons.inj heq).1 hescape
  | short hc =>
      cases h' with
      | plain _ _ hescape => exact absurd (List.cons.inj heq).1.symm hescape
      | short hc' =>
          obtain rfl := (List.cons.inj (List.cons.inj heq).2).1
          exact ⟨rfl, Option.some.inj (hc.symm.trans hc')⟩
      | unit _ => exact absurd (List.cons.inj (List.cons.inj heq).2).1.symm (hu hc)
      | pair => exact absurd (List.cons.inj (List.cons.inj heq).2).1.symm (hu hc)
  | unit hc =>
      cases h' with
      | plain _ _ hescape => exact absurd (List.cons.inj heq).1.symm hescape
      | short hc' => exact absurd (List.cons.inj (List.cons.inj heq).2).1 (hu hc')
      | unit hc' =>
          obtain ⟨rfl, hn, -⟩ := hdigits hc hc' (hletter heq)
          exact ⟨rfl, Char.toNat_inj.1 hn⟩
      | pair hhigh _ hfirst _ _ =>
          have hfollow := hletter heq
          rw [List.append_assoc] at hfollow
          obtain ⟨-, hn, -⟩ := hdigits hc hhigh hfollow
          exact absurd ⟨hn ▸ hfirst.1, by omega⟩ (not_surrogate c)
  | pair hhigh hlow hfirst _ hc =>
      cases h' with
      | plain _ _ hescape => exact absurd (List.cons.inj heq).1.symm hescape
      | short hc' => exact absurd (List.cons.inj (List.cons.inj heq).2).1 (hu hc')
      | unit hc' =>
          have hfollow := hletter heq
          rw [List.append_assoc] at hfollow
          obtain ⟨-, hn, -⟩ := hdigits hhigh hc' hfollow
          exact absurd ⟨hn ▸ hfirst.1, by omega⟩ (not_surrogate c')
      | pair hhigh' hlow' _ _ hc' =>
          have hfollow := hletter heq
          rw [List.append_assoc, List.append_assoc] at hfollow
          obtain ⟨rfl, rfl, hr⟩ := hdigits hhigh hhigh' hfollow
          obtain ⟨rfl, rfl, -⟩ := hdigits hlow hlow' (hletter hr)
          exact ⟨rfl, Char.toNat_inj.1 (hc.trans hc'.symm)⟩

/-- **A string ends** at the first quotation mark that is not escaped. -/
theorem SpellsChars.eq_of_append (h : SpellsChars cs s) (h' : SpellsChars cs' s')
    (heq : cs ++ '\x22' :: rest = cs' ++ '\x22' :: rest') : cs = cs' ∧ s = s' := by
  induction h generalizing cs' s' with
  | nil =>
      cases h' with
      | nil => exact ⟨rfl, rfl⟩
      | cons hc' _ =>
          obtain ⟨d, ds, rfl, hd⟩ := hc'.exists_cons
          exact absurd (List.cons.inj heq).1.symm hd
  | cons hc hchars ih =>
      cases h' with
      | nil =>
          obtain ⟨d, ds, rfl, hd⟩ := hc.exists_cons
          exact absurd (List.cons.inj heq).1 hd
      | cons hc' hchars' =>
          rw [List.append_assoc, List.append_assoc] at heq
          obtain ⟨rfl, rfl⟩ := hc.eq_of_append hc' heq
          obtain ⟨rfl, rfl⟩ := ih hchars' (List.append_cancel_left heq)
          exact ⟨rfl, rfl⟩

/-! ### Where values end -/

/-- Characters of numbers. -/
def isNumeric (c : Char) : Bool :=
  c.isDigit || ['-', '+', '.', 'e', 'E'].contains c

/-- The characters with which values start. -/
def isBeginning (c : Char) : Bool :=
  c.isDigit || ['-', 'n', 't', 'f', '\x22', '[', '\x7b'].contains c

/-- What may follow an item: nothing, a comma, or a closing sign. -/
def Closes (rest : List Char) : Prop :=
  ∀ c ∈ rest.head?, c = ',' ∨ c = ']' ∨ c = '\x7d'

theorem Closes.isSpace_head (h : Closes rest) : ∀ c ∈ rest.head?, isSpace c = false := by
  intro c hc
  rcases h c hc with rfl | rfl | rfl <;> decide

/-- No number goes on behind an item. -/
theorem Closes.isNumeric_head (h : Closes rest) (hcs : IsGap cs) :
    ∀ c ∈ (cs ++ rest).head?, isNumeric c = false := by
  intro c hc
  cases cs with
  | nil => rcases h c hc with rfl | rfl | rfl <;> decide
  | cons d ds =>
      obtain rfl : d = c := Option.some.inj hc
      have hspace := hcs d List.mem_cons_self
      simp only [isSpace, Bool.or_eq_true, beq_iff_eq] at hspace
      rcases hspace with ((rfl | rfl) | rfl) | rfl <;> decide

theorem closes_cons (h : c = ',' ∨ c = ']' ∨ c = '\x7d') : Closes (c :: rest) := by
  intro d hd
  exact Option.some.inj hd ▸ h

theorem of_isDigit (h : c.isDigit = true) : 48 ≤ c.toNat ∧ c.toNat ≤ 57 := by
  simpa [Char.isDigit, UInt32.le_iff_toNat_le] using h

theorem isSpace_of_isBeginning (h : isBeginning c = true) : isSpace c = false := by
  rw [isBeginning, Bool.or_eq_true] at h
  rcases h with h | h
  · have := of_isDigit h
    refine Bool.eq_false_iff.2 fun hspace => ?_
    simp only [isSpace, Bool.or_eq_true, beq_iff_eq] at hspace
    rcases hspace with ((rfl | rfl) | rfl) | rfl <;> revert this <;> decide
  · have hall : ['-', 'n', 't', 'f', '\x22', '[', '\x7b'].all (fun c => !isSpace c) = true := by
      decide
    simpa using List.all_eq_true.1 hall c (by simpa using h)

theorem of_head? {p : Char → Bool} (h : p c = false) : ∀ d ∈ (c :: rest).head?, p d = false :=
  fun _ hd => Option.some.inj hd ▸ h

/-- **Two texts part at one place** if both have characters of a kind up to there, and none behind
it. -/
theorem eq_of_append_of_all {p : Char → Bool} (hcs : ∀ c ∈ cs, p c = true)
    (hcs' : ∀ c ∈ cs', p c = true) (hrest : ∀ c ∈ rest.head?, p c = false)
    (hrest' : ∀ c ∈ rest'.head?, p c = false) (heq : cs ++ rest = cs' ++ rest') :
    cs = cs' ∧ rest = rest' := by
  have htake {as bs : List Char} (has : ∀ c ∈ as, p c = true) (hbs : ∀ c ∈ bs.head?, p c = false) :
      (as ++ bs).takeWhile p = as := by
    rw [List.takeWhile_append_of_pos has]
    cases bs with
    | nil => simp
    | cons b bs => simp [hbs b rfl]
  have hsame : cs = cs' := by rw [← htake hcs hrest, heq, htake hcs' hrest']
  subst hsame
  exact ⟨rfl, List.append_cancel_left heq⟩

theorem isNumeric_of_isDigits (h : IsDigits cs) : ∀ c ∈ cs, isNumeric c = true := by
  intro c hc
  simp [isNumeric, h.2 c hc]

theorem IsNumber.isNumeric (h : IsNumber cs) : ∀ c ∈ cs, isNumeric c = true := by
  obtain ⟨sign, digits, fraction, exponent, rfl, hsign, hdigits, -, hfraction, hexponent⟩ := h
  intro c hc
  simp only [List.mem_append] at hc
  rcases hc with hc | hc | hc | hc
  · simp only [List.mem_cons, List.not_mem_nil, or_false] at hsign
    rcases hsign with rfl | rfl
    · cases hc
    · rw [List.mem_singleton.1 hc]
      decide
  · exact isNumeric_of_isDigits hdigits c hc
  · rcases hfraction with rfl | ⟨ds, rfl, hds⟩
    · cases hc
    · rcases List.mem_cons.1 hc with rfl | hc
      · decide
      · exact isNumeric_of_isDigits hds c hc
  · rcases hexponent with rfl | ⟨letter, sign', ds, rfl, hletter, hsign', hds⟩
    · cases hc
    · simp only [List.mem_cons, List.mem_append] at hc
      rcases hc with rfl | hc | hc
      · simp only [List.mem_cons, List.not_mem_nil, or_false] at hletter
        rcases hletter with rfl | rfl <;> decide
      · simp only [List.mem_cons, List.not_mem_nil, or_false] at hsign'
        rcases hsign' with rfl | rfl | rfl
        · cases hc
        · rw [List.mem_singleton.1 hc]
          decide
        · rw [List.mem_singleton.1 hc]
          decide
      · exact isNumeric_of_isDigits hds c hc

/-- A number starts with a minus sign or a digit. -/
theorem IsNumber.exists_cons (h : IsNumber cs) :
    ∃ d ds, cs = d :: ds ∧ (d.isDigit = true ∨ d = '-') := by
  obtain ⟨sign, digits, fraction, exponent, rfl, hsign, ⟨hne, hdigits⟩, -⟩ := h
  simp only [List.mem_cons, List.not_mem_nil, or_false] at hsign
  rcases hsign with rfl | rfl
  · obtain ⟨d, ds, rfl⟩ := List.exists_cons_of_ne_nil hne
    exact ⟨d, _, rfl, Or.inl (hdigits d List.mem_cons_self)⟩
  · exact ⟨'-', _, rfl, Or.inr rfl⟩

/-- Nothing but a number starts like a number. -/
theorem IsNumber.append_ne (h : IsNumber cs) (hc : Json.isNumeric c = false) :
    cs ++ rest ≠ c :: rest' := by
  obtain ⟨d, ds, rfl, -⟩ := h.exists_cons
  intro heq
  obtain ⟨rfl, -⟩ := List.cons.inj heq
  rw [h.isNumeric d List.mem_cons_self] at hc
  cases hc

/-- **A value starts** with one of a few characters. -/
theorem Spells.exists_cons (h : Spells cs v) : ∃ d ds, cs = d :: ds ∧ isBeginning d = true := by
  cases h with
  | number hn =>
      obtain ⟨d, ds, rfl, hd⟩ := hn.exists_cons
      refine ⟨d, ds, rfl, ?_⟩
      rcases hd with hd | rfl
      · simp [isBeginning, hd]
      · decide
  | _ => exact ⟨_, _, rfl, by decide⟩

theorem Spells.isSpace_head (h : Spells cs v) : ∀ c ∈ (cs ++ rest).head?, isSpace c = false := by
  obtain ⟨d, ds, rfl, hd⟩ := h.exists_cons
  exact of_head? (isSpace_of_isBeginning hd)

/-- White space before a closing sign is not white space before anything else. -/
theorem gap_append_ne {gap before ds : List Char} {close d : Char} (hgap : IsGap gap)
    (hbefore : IsGap before) (hclose : isSpace close = false) (hd : isSpace d = false)
    (hne : close ≠ d) : gap ++ close :: rest ≠ before ++ d :: ds := by
  intro heq
  obtain ⟨-, hrest⟩ := eq_of_append_of_all hgap hbefore (of_head? hclose) (of_head? hd) heq
  exact hne (List.cons.inj hrest).1

/-- An array that has items is not an empty one. -/
theorem SpellsItems.gap_append_ne {gap : List Char} {vs : List Value} (h : SpellsItems cs vs)
    (hgap : IsGap gap) : gap ++ ']' :: rest ≠ cs ++ ']' :: rest' := by
  have hitem {cs more : List Char} {v : Value} (h : SpellsItem cs v) :
      gap ++ ']' :: rest ≠ cs ++ more := by
    cases h with
    | mk hbefore h hafter =>
        obtain ⟨d, ds, rfl, hd⟩ := h.exists_cons
        rw [List.append_assoc, List.cons_append, List.cons_append]
        refine Json.gap_append_ne hgap hbefore (by decide) (isSpace_of_isBeginning hd) ?_
        rintro rfl
        cases hd
  cases h with
  | one h => exact hitem h
  | more h _ =>
      rw [List.append_assoc]
      exact hitem h

/-- An object that has members is not an empty one. -/
theorem SpellsMembers.gap_append_ne {gap : List Char} {ms : List (String × Value)}
    (h : SpellsMembers cs ms) (hgap : IsGap gap) :
    gap ++ '\x7d' :: rest ≠ cs ++ '\x7d' :: rest' := by
  have hmember {cs more : List Char} {m : String × Value} (h : SpellsMember cs m) :
      gap ++ '\x7d' :: rest ≠ cs ++ more := by
    cases h with
    | mk hbefore hname hafter h =>
        rw [List.append_assoc, List.cons_append]
        exact Json.gap_append_ne hgap hbefore (by decide) (by decide) (by decide)
  cases h with
  | one h => exact hmember h
  | more h _ =>
      rw [List.append_assoc]
      exact hmember h

/-! ### One value for one text -/

/-- What stands between two signs, with what follows them. -/
theorem append_of_enclosed {opening closing : Char}
    (h : opening :: (cs ++ [closing]) ++ rest = opening :: (cs' ++ [closing]) ++ rest') :
    cs ++ closing :: rest = cs' ++ closing :: rest' := by
  simpa using h

mutual

/-- **A value** that comes first is the only one, if no number goes on behind it. -/
theorem Spells.eq_of_append {cs cs' rest rest' : List Char} {v v' : Value}
    (h : Spells cs v) (h' : Spells cs' v')
    (hrest : ∀ c ∈ rest.head?, isNumeric c = false)
    (hrest' : ∀ c ∈ rest'.head?, isNumeric c = false) (heq : cs ++ rest = cs' ++ rest') :
    cs = cs' ∧ v = v' := by
  cases h with
  | null =>
      cases h' with
      | null => exact ⟨rfl, rfl⟩
      | number hn => exact absurd heq.symm (hn.append_ne (by decide))
      | _ => simp at heq
  | yes =>
      cases h' with
      | yes => exact ⟨rfl, rfl⟩
      | number hn => exact absurd heq.symm (hn.append_ne (by decide))
      | _ => simp at heq
  | no =>
      cases h' with
      | no => exact ⟨rfl, rfl⟩
      | number hn => exact absurd heq.symm (hn.append_ne (by decide))
      | _ => simp at heq
  | number hn =>
      cases h' with
      | number hn' =>
          obtain ⟨rfl, -⟩ := eq_of_append_of_all hn.isNumeric hn'.isNumeric hrest hrest' heq
          exact ⟨rfl, rfl⟩
      | _ => exact absurd heq (hn.append_ne (by decide))
  | string hs =>
      cases h' with
      | string hs' =>
          obtain ⟨rfl, rfl⟩ := hs.eq_of_append hs' (append_of_enclosed heq)
          exact ⟨rfl, rfl⟩
      | number hn => exact absurd heq.symm (hn.append_ne (by decide))
      | _ => simp at heq
  | emptyArray hgap =>
      cases h' with
      | emptyArray hgap' =>
          obtain ⟨rfl, -⟩ := eq_of_append_of_all hgap hgap' (of_head? (by decide))
            (of_head? (by decide)) (append_of_enclosed heq)
          exact ⟨rfl, rfl⟩
      | array hitems => exact absurd (append_of_enclosed heq) (hitems.gap_append_ne hgap)
      | number hn => exact absurd heq.symm (hn.append_ne (by decide))
      | _ => simp at heq
  | array hitems =>
      cases h' with
      | emptyArray hgap => exact absurd (append_of_enclosed heq.symm) (hitems.gap_append_ne hgap)
      | array hitems' =>
          obtain ⟨rfl, rfl⟩ := hitems.eq_of_append hitems' (append_of_enclosed heq)
          exact ⟨rfl, rfl⟩
      | number hn => exact absurd heq.symm (hn.append_ne (by decide))
      | _ => simp at heq
  | emptyObject hgap =>
      cases h' with
      | emptyObject hgap' =>
          obtain ⟨rfl, -⟩ := eq_of_append_of_all hgap hgap' (of_head? (by decide))
            (of_head? (by decide)) (append_of_enclosed heq)
          exact ⟨rfl, rfl⟩
      | object hmembers => exact absurd (append_of_enclosed heq) (hmembers.gap_append_ne hgap)
      | number hn => exact absurd heq.symm (hn.append_ne (by decide))
      | _ => simp at heq
  | object hmembers =>
      cases h' with
      | emptyObject hgap => exact absurd (append_of_enclosed heq.symm) (hmembers.gap_append_ne hgap)
      | object hmembers' =>
          obtain ⟨rfl, rfl⟩ := hmembers.eq_of_append hmembers' (append_of_enclosed heq)
          exact ⟨rfl, rfl⟩
      | number hn => exact absurd heq.symm (hn.append_ne (by decide))
      | _ => simp at heq
  termination_by 4 * cs.length
  decreasing_by all_goals (subst_vars; simp +arith)

/-- **An item** that comes first is the only one, if something closes it. -/
theorem SpellsItem.eq_of_append {cs cs' rest rest' : List Char} {v v' : Value}
    (h : SpellsItem cs v) (h' : SpellsItem cs' v')
    (hrest : Closes rest) (hrest' : Closes rest') (heq : cs ++ rest = cs' ++ rest') :
    cs = cs' ∧ v = v' := by
  cases h with
  | mk hbefore h hafter =>
  cases h' with
  | mk hbefore' h' hafter' =>
  rw [List.append_assoc, List.append_assoc, List.append_assoc, List.append_assoc] at heq
  obtain ⟨rfl, hvalues⟩ := eq_of_append_of_all hbefore hbefore' h.isSpace_head h'.isSpace_head heq
  obtain ⟨rfl, rfl⟩ := h.eq_of_append h' (hrest.isNumeric_head hafter)
    (hrest'.isNumeric_head hafter') hvalues
  obtain ⟨rfl, -⟩ := eq_of_append_of_all hafter hafter' hrest.isSpace_head hrest'.isSpace_head
    (List.append_cancel_left hvalues)
  exact ⟨rfl, rfl⟩
  termination_by 4 * cs.length + 1
  decreasing_by all_goals (subst_vars; simp +arith)

/-- **The items of an array** end at its closing bracket. -/
theorem SpellsItems.eq_of_append {cs cs' rest rest' : List Char} {vs vs' : List Value}
    (h : SpellsItems cs vs) (h' : SpellsItems cs' vs')
    (heq : cs ++ ']' :: rest = cs' ++ ']' :: rest') : cs = cs' ∧ vs = vs' := by
  have hcomma (rest : List Char) : Closes (',' :: rest) := closes_cons (by decide)
  have hclose (rest : List Char) : Closes (']' :: rest) := closes_cons (by decide)
  cases h with
  | one h =>
      cases h' with
      | one h' =>
          obtain ⟨rfl, rfl⟩ := h.eq_of_append h' (hclose _) (hclose _) heq
          exact ⟨rfl, rfl⟩
      | more h' _ =>
          rw [List.append_assoc, List.cons_append] at heq
          obtain ⟨rfl, -⟩ := h.eq_of_append h' (hclose _) (hcomma _) heq
          cases (List.cons.inj (List.append_cancel_left heq)).1
  | more h hmore =>
      rw [List.append_assoc, List.cons_append] at heq
      cases h' with
      | one h' =>
          obtain ⟨rfl, -⟩ := h.eq_of_append h' (hcomma _) (hclose _) heq
          cases (List.cons.inj (List.append_cancel_left heq)).1
      | more h' hmore' =>
          rw [List.append_assoc, List.cons_append] at heq
          obtain ⟨rfl, rfl⟩ := h.eq_of_append h' (hcomma _) (hcomma _) heq
          obtain ⟨rfl, rfl⟩ := hmore.eq_of_append hmore'
            (List.cons.inj (List.append_cancel_left heq)).2
          exact ⟨rfl, rfl⟩
  termination_by 4 * cs.length + 2
  decreasing_by all_goals (subst_vars; simp +arith)

/-- **A member of an object** that comes first is the only one, if something closes it. -/
theorem SpellsMember.eq_of_append {cs cs' rest rest' : List Char} {m m' : String × Value}
    (h : SpellsMember cs m) (h' : SpellsMember cs' m') (hrest : Closes rest) (hrest' : Closes rest')
    (heq : cs ++ rest = cs' ++ rest') : cs = cs' ∧ m = m' := by
  cases h with
  | mk hbefore hname hafter h =>
  cases h' with
  | mk hbefore' hname' hafter' h' =>
  simp only [List.append_assoc, List.cons_append] at heq
  obtain ⟨rfl, hnames⟩ := eq_of_append_of_all hbefore hbefore' (of_head? (by decide))
    (of_head? (by decide)) heq
  replace hnames := (List.cons.inj hnames).2
  obtain ⟨rfl, rfl⟩ := hname.eq_of_append hname' hnames
  obtain ⟨rfl, hvalues⟩ := eq_of_append_of_all hafter hafter' (of_head? (by decide))
    (of_head? (by decide)) (List.cons.inj (List.append_cancel_left hnames)).2
  obtain ⟨rfl, rfl⟩ := h.eq_of_append h' hrest hrest' (List.cons.inj hvalues).2
  exact ⟨rfl, rfl⟩
  termination_by 4 * cs.length + 2
  decreasing_by all_goals (subst_vars; simp +arith)

/-- **The members of an object** end at its closing brace. -/
theorem SpellsMembers.eq_of_append {cs cs' rest rest' : List Char}
    {ms ms' : List (String × Value)} (h : SpellsMembers cs ms) (h' : SpellsMembers cs' ms')
    (heq : cs ++ '\x7d' :: rest = cs' ++ '\x7d' :: rest') : cs = cs' ∧ ms = ms' := by
  have hcomma (rest : List Char) : Closes (',' :: rest) := closes_cons (by decide)
  have hclose (rest : List Char) : Closes ('\x7d' :: rest) := closes_cons (by decide)
  cases h with
  | one h =>
      cases h' with
      | one h' =>
          obtain ⟨rfl, rfl⟩ := h.eq_of_append h' (hclose _) (hclose _) heq
          exact ⟨rfl, rfl⟩
      | more h' _ =>
          rw [List.append_assoc, List.cons_append] at heq
          obtain ⟨rfl, -⟩ := h.eq_of_append h' (hclose _) (hcomma _) heq
          cases (List.cons.inj (List.append_cancel_left heq)).1
  | more h hmore =>
      rw [List.append_assoc, List.cons_append] at heq
      cases h' with
      | one h' =>
          obtain ⟨rfl, -⟩ := h.eq_of_append h' (hcomma _) (hclose _) heq
          cases (List.cons.inj (List.append_cancel_left heq)).1
      | more h' hmore' =>
          rw [List.append_assoc, List.cons_append] at heq
          obtain ⟨rfl, rfl⟩ := h.eq_of_append h' (hcomma _) (hcomma _) heq
          obtain ⟨rfl, rfl⟩ := hmore.eq_of_append hmore'
            (List.cons.inj (List.append_cancel_left heq)).2
          exact ⟨rfl, rfl⟩
  termination_by 4 * cs.length + 3
  decreasing_by all_goals (subst_vars; simp +arith)

end

/-- **The grammar is unambiguous:** no text has two values. -/
theorem IsText.unique {text : String} (h : IsText text v) (h' : IsText text v') : v = v' := by
  have hend : Closes [] := by simp [Closes]
  exact (h.eq_of_append h' hend hend rfl).2

end Json

end GoPlanner
