import GoPlanner.ModuleFile.Basic
import GoPlanner.Proofs.Text.Lines
import Mathlib.Data.List.Forall2

/-!
# Module Files in a Written Form

A module file can be written with one directive on each line, every path and version in double
quotes. In quotes a character stands for itself, but backslashes and double quotes are escaped. So
each word of a line is read as the token that it was written for, whatever is in it.

## Main definitions

* `ModuleFile.quoted`, `ModuleFile.render`: words in double quotes, and a module file as a text.
* `ModuleFile.Spells`: a word as it is written, and the token that it is read as.

## Main results

* `ModuleFile.spells_quoted`, `ModuleFile.spells_bare`: single words.
* `ModuleFile.tokens_intercalate`: the tokens of a line.
* `ModuleFile.lines_render`: the lines of the text.
-/

namespace GoPlanner

/-- The words for what is replaced. -/
def Replacement.old (r : Replacement) : List String :=
  r.oldPath :: r.oldVersion.toList

/-- The words for what stands for it. -/
def Replacement.Target.words : Replacement.Target → List String
  | directory path => [path.text]
  | module path version => [path, version]

namespace ModuleFile

variable {c : Char} {cs rest : List Char} {s word token : String} {words ts : List String}
  {m : ModuleFile}

/-! ### The written form -/

/-- A character as it stands in double quotes. -/
def escaped (c : Char) : List Char :=
  if c = '\\' || c = '\x22' then ['\\', c] else [c]

/-- **A word in double quotes.** -/
def quoted (word : String) : String :=
  "\x22" ++ String.ofList (word.toList.flatMap escaped) ++ "\x22"

/-- The words of the line of the module path, as they are written. -/
def moduleWords (path : String) : List String :=
  ["module", quoted path]

/-- The words of the line of a replacement, as they are written. -/
def replaceWords (r : Replacement) : List String :=
  "replace" :: (r.old.map quoted ++ "=>" :: r.target.words.map quoted)

/-- **The directives of a module file:** one for its path, and one for each replacement. -/
def directives (m : ModuleFile) : List (List String) :=
  moduleWords m.modulePath :: m.replacements.map replaceWords

/-- **A module file as a text,** with one directive on each line. -/
def render (m : ModuleFile) : String :=
  String.join (m.directives.map (fun words => " ".intercalate words ++ "\n"))

/-! ### Single words -/

/-- A line goes on with a blank, or it is over. -/
def EndsWord (rest : List Char) : Prop :=
  ∀ c ∈ rest.head?, isBlank c = true

theorem endsWord_nil : EndsWord [] := by
  simp [EndsWord]

theorem endsWord_cons (h : isBlank c = true) : EndsWord (c :: cs) := by
  simpa [EndsWord] using h

/-- **A word spells a token** if it is read as that token, whatever follows it on the line. -/
def Spells (word token : String) : Prop :=
  ∀ rest, EndsWord rest → tokens (word.toList ++ rest) = (tokens rest).map (token.toList :: ·)

/-- **What stands in double quotes** is read back. -/
theorem readQuoted_escaped (cs rest : List Char) :
    readQuoted '\x22' (cs.flatMap escaped ++ '\x22' :: rest) = some (cs, rest) := by
  induction cs with
  | nil =>
      rw [List.flatMap_nil, List.nil_append, readQuoted.eq_def]
      rfl
  | cons c cs ih =>
      rw [List.flatMap_cons, escaped]
      by_cases hc : c = '\\' ∨ c = '\x22'
      · rw [if_pos (by simpa using hc), List.append_assoc, readQuoted.eq_def]
        simp [ih]
      · obtain ⟨hslash, hquote⟩ := not_or.1 hc
        rw [if_neg (by simpa using hc), List.append_assoc, readQuoted.eq_def]
        simp [ih, hslash, hquote]

/-- A quote is no blank and no slash. -/
theorem of_isQuote (h : isQuote c = true) : isBlank c = false ∧ c ≠ '/' := by
  rw [isQuote, Bool.or_eq_true, beq_iff_eq, beq_iff_eq] at h
  rcases h with rfl | rfl <;> decide

/-- **A blank** makes no token. -/
theorem tokens_blank (h : isBlank c = true) (cs : List Char) : tokens (c :: cs) = tokens cs := by
  rw [tokens.eq_def]
  simp only [h, if_true]

/-- A quoted string is one token. -/
theorem tokens_quote {value rest' : List Char} (hquote : isQuote c = true)
    (h : readQuoted c rest = some (value, rest')) :
    tokens (c :: rest) = (tokens rest').map (value :: ·) := by
  have hc := of_isQuote hquote
  rw [tokens.eq_def]
  simp only [hc.1, hc.2, hquote, Bool.false_eq_true, if_false, if_true]
  split
  · rename_i hnone
    cases h.symm.trans hnone
  · rename_i r hr
    obtain rfl := Option.some.inj (h.symm.trans hr)
    rfl

/-- **Words in double quotes** spell what is in them. -/
theorem spells_quoted (s : String) : Spells (quoted s) s := by
  intro rest _
  have htext : (quoted s).toList ++ rest =
      '\x22' :: (s.toList.flatMap escaped ++ '\x22' :: rest) := by
    simp [quoted]
  rw [htext, tokens_quote (by decide) (readQuoted_escaped _ _)]

/-- **Bare words** have no blanks, quotes or slashes. -/
def IsBare (word : String) : Prop :=
  word ≠ "" ∧ ∀ c ∈ word.toList, isBlank c = false ∧ isQuote c = false ∧ c ≠ '/'

theorem readWord_bare {last : Char}
    (h : ∀ c ∈ cs, isBlank c = false ∧ isQuote c = false ∧ c ≠ '/') (hrest : EndsWord rest) :
    readWord last (cs ++ rest) = (last :: cs, some rest) := by
  induction cs generalizing last with
  | nil =>
      cases rest with
      | nil => rfl
      | cons c rest => simp [readWord, hrest c rfl]
  | cons c cs ih =>
      obtain ⟨⟨hblank, hquote, hslash⟩, hcs⟩ := List.forall_mem_cons.1 h
      rw [List.cons_append, readWord]
      simp [hblank, hquote, hslash, ih hcs]

/-- A word that ends before a blank is one token. -/
theorem tokens_word {word rest' : List Char}
    (hc : isBlank c = false ∧ isQuote c = false ∧ c ≠ '/')
    (h : readWord c rest = (word, some rest')) :
    tokens (c :: rest) = (tokens rest').map (word :: ·) := by
  rw [tokens.eq_def]
  simp only [hc.1, hc.2.1, hc.2.2, Bool.false_eq_true, if_false]
  split
  · rename_i hend
    cases h.symm.trans hend
  · rename_i hend
    obtain ⟨rfl, hrest⟩ := Prod.mk.inj (h.symm.trans hend)
    rw [Option.some.inj hrest]

/-- **Bare words** spell themselves. -/
theorem spells_bare (h : IsBare s) : Spells s s := by
  intro rest hrest
  obtain ⟨c, cs, hs⟩ := List.exists_cons_of_ne_nil (mt String.toList_eq_nil_iff.1 h.1)
  obtain ⟨hc, hcs⟩ := List.forall_mem_cons.1 (hs ▸ h.2)
  rw [hs, List.cons_append, tokens_word hc (readWord_bare hcs hrest)]

/-! ### Lines -/

/-- **The tokens of a line** are those that its words spell. -/
theorem tokens_intercalate (h : List.Forall₂ Spells words ts) :
    tokens (" ".intercalate words).toList = some (ts.map String.toList) := by
  have hblank : isBlank ' ' = true := by decide
  rw [String.toList_intercalate]
  induction h with
  | nil => rw [List.map_nil, List.intercalate_nil, tokens]
  | @cons word token words ts hword hwords ih =>
      cases words with
      | nil =>
          cases hwords
          have hend := hword [] endsWord_nil
          rw [List.append_nil] at hend
          simp [hend, tokens]
      | cons word' words =>
          have htext : " ".toList.intercalate ((word :: word' :: words).map String.toList) =
              word.toList ++ ' ' :: " ".toList.intercalate ((word' :: words).map String.toList) := by
            rw [List.map_cons, List.map_cons, List.intercalate_cons_cons, List.append_assoc]
            rfl
          rw [htext, hword _ (endsWord_cons hblank), tokens_blank hblank, ih]
          rfl

theorem spells_quoted_map (words : List String) :
    List.Forall₂ Spells (words.map quoted) words := by
  induction words with
  | nil => exact .nil
  | cons word words ih => exact .cons (spells_quoted word) ih

/-- The tokens of the line of the module path. -/
theorem tokens_moduleWords (path : String) :
    tokens (" ".intercalate (moduleWords path)).toList =
      some (["module", path].map String.toList) :=
  tokens_intercalate
    (.cons (spells_bare (by simp [IsBare]; decide)) (.cons (spells_quoted path) .nil))

/-- The tokens of the line of a replacement. -/
theorem tokens_replaceWords (r : Replacement) :
    tokens (" ".intercalate (replaceWords r)).toList =
      some (("replace" :: (r.old ++ "=>" :: r.target.words)).map String.toList) := by
  refine tokens_intercalate (.cons (spells_bare (by simp [IsBare]; decide)) ?_)
  refine List.rel_append (spells_quoted_map _) (.cons (spells_bare (by simp [IsBare]; decide)) ?_)
  exact spells_quoted_map _

/-! ### The lines of the text -/

theorem mem_quoted (h : c ∈ (quoted s).toList) : c ∈ s.toList ∨ c = '\\' ∨ c = '\x22' := by
  simp only [quoted, String.toList_append, List.mem_append, String.toList_ofList,
    List.mem_flatMap] at h
  rcases h with (h | ⟨d, hd, h⟩) | h
  · exact Or.inr (Or.inr (by simpa using h))
  · rw [escaped] at h
    split at h
    · rcases List.mem_cons.1 h with rfl | h
      · exact Or.inr (Or.inl rfl)
      · exact Or.inl (List.mem_singleton.1 h ▸ hd)
    · exact Or.inl (List.mem_singleton.1 h ▸ hd)
  · exact Or.inr (Or.inr (by simpa using h))

theorem notMem_quoted (h : '\n' ∉ s.toList) : '\n' ∉ (quoted s).toList := by
  intro hmem
  rcases mem_quoted hmem with hmem | hmem | hmem
  · exact h hmem
  · exact absurd hmem (by decide)
  · exact absurd hmem (by decide)

/-- Words on one line are put together with spaces. -/
theorem mem_intercalate (h : c ∈ (" ".intercalate words).toList) :
    c = ' ' ∨ ∃ word ∈ words, c ∈ word.toList := by
  rw [String.toList_intercalate] at h
  induction words with
  | nil => cases h
  | cons word words ih =>
      cases words with
      | nil =>
          rw [List.map_singleton, List.intercalate_singleton] at h
          exact Or.inr ⟨word, List.mem_cons_self, h⟩
      | cons word' words =>
          rw [List.map_cons, List.map_cons, List.intercalate_cons_cons, ← List.map_cons] at h
          rcases List.mem_append.1 h with h | h
          · rcases List.mem_append.1 h with h | h
            · exact Or.inr ⟨word, List.mem_cons_self, h⟩
            · exact Or.inl (by simpa using h)
          · refine (ih h).imp_right ?_
            rintro ⟨other, hother, hc⟩
            exact ⟨other, List.mem_cons_of_mem _ hother, hc⟩

/-- A line ends with its last word. -/
theorem getLast?_intercalate (hlast : words.getLast? = some word) (hne : word ≠ "") :
    (" ".intercalate words).toList.getLast? = word.toList.getLast? := by
  rw [String.toList_intercalate]
  induction words with
  | nil => cases hlast
  | cons first words ih =>
      cases words with
      | nil =>
          obtain rfl : first = word := by simpa using hlast
          rw [List.map_singleton, List.intercalate_singleton]
      | cons second words =>
          rw [List.getLast?_cons_cons] at hlast
          rw [List.map_cons, List.map_cons, List.intercalate_cons_cons, ← List.map_cons,
            List.getLast?_append, ih hlast]
          obtain ⟨c, hc⟩ : ∃ c, word.toList.getLast? = some c :=
            Option.isSome_iff_exists.1 (by simpa using hne)
          rw [hc, Option.some_or]

theorem getLast?_quoted (s : String) : (quoted s).toList.getLast? = some '\x22' := by
  simp [quoted, List.getLast?_cons]

/-- **The lines of the text** are the directives, if no word has a line feed. -/
theorem lines_render (hpath : '\n' ∉ m.modulePath.toList)
    (hwords : ∀ r ∈ m.replacements, ∀ word ∈ r.old ++ r.target.words, '\n' ∉ word.toList) :
    Text.lines m.render.toList =
      m.directives.map (fun words => (" ".intercalate words).toList) := by
  have htext : m.render.toList =
      (m.directives.map (fun words => (" ".intercalate words).toList)).flatMap (· ++ ['\n']) := by
    simp [render, List.flatMap_map]
  have hline {words : List String} {last : String}
      (hfeed : ∀ word ∈ words, '\n' ∉ word.toList) (hlast : words.getLast? = some (quoted last)) :
      '\n' ∉ (" ".intercalate words).toList ∧
        (" ".intercalate words).toList.getLast? ≠ some '\r' := by
    constructor
    · intro hmem
      rcases mem_intercalate hmem with hspace | ⟨word, hword, hmem⟩
      · exact absurd hspace (by decide)
      · exact hfeed word hword hmem
    · rw [getLast?_intercalate hlast (by simp [quoted]), getLast?_quoted]
      decide
  rw [htext]
  refine Text.lines_ended fun l hl => ?_
  obtain ⟨words, hmem, rfl⟩ := List.mem_map.1 hl
  rcases List.mem_cons.1 hmem with rfl | hmem
  · exact hline (by simp [moduleWords, notMem_quoted hpath]) rfl
  · obtain ⟨r, hr, rfl⟩ := List.mem_map.1 hmem
    obtain ⟨last, hlast⟩ : ∃ last, (replaceWords r).getLast? = some (quoted last) := by
      rw [replaceWords]
      cases r.target with
      | directory path =>
          exact ⟨path.text, by simp [Replacement.Target.words, List.getLast?_cons]⟩
      | module path version =>
          exact ⟨version, by simp [Replacement.Target.words, List.getLast?_cons]⟩
    refine hline (fun word hword => ?_) hlast
    simp only [replaceWords, List.mem_cons, List.mem_append, List.mem_map] at hword
    rcases hword with rfl | ⟨word, hword, rfl⟩ | rfl | ⟨word, hword, rfl⟩
    · decide
    · exact notMem_quoted (hwords r hr word (List.mem_append_left _ hword))
    · decide
    · exact notMem_quoted (hwords r hr word (List.mem_append_right _ hword))

end ModuleFile

end GoPlanner
