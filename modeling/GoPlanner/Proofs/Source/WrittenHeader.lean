import GoPlanner.Source.Header
import GoPlanner.Proofs.Source.Pieces

/-!
# Headers in Every Layout

The package clause and the imports of a source file can be written down in many ways: as single
declarations or in blocks, with literals of either kind, with blanks, comments and semicolons between
them. Whichever way is taken, the header is read back: the package name, and the local name and the
path of every import, in order. What follows the imports is not looked at, as long as it starts with
an identifier other than `import`.

Two identifiers must not touch. So something stands behind the word `package` and behind the name of
the package, and behind the word `import` if a local name follows it that is an identifier.

## Main definitions

* `Source.Spec`, `Source.Declaration`: imports as they are written, single and grouped.
* `Source.WrittenHeader`: the text of a whole file, put together from its pieces.

## Main results

* `Source.yields_spec`: one import, inside a block or not.
* `Source.yields_declarations`: all declarations up to the end of the header.
* `Source.scanHeader_text`: the header of the text.
-/

namespace GoPlanner

/-- The local name and the path of an import. -/
def Import.said (i : Import) : Option String × String :=
  (i.alias?, i.path)

/-- The name of the package, and the local names and paths of the imports. -/
def Header.said (h : Header) : String × List (Option String × String) :=
  (h.package, h.imports.map Import.said)

namespace Source

variable {rest : List Char}

/-- The word that starts the package clause. -/
def packageWord : Word :=
  ⟨"package".toList, by decide⟩

/-- The word that starts a declaration. -/
def importWord : Word :=
  ⟨"import".toList, by decide⟩

/-! ### Separators -/

/-- **What stands between two imports or declarations:** trivia and semicolons. -/
inductive Piece where
  /-- A blank or a comment. -/
  | trivium (t : Trivium)
  /-- A semicolon. -/
  | semicolon

/-- The characters of a piece of a separator. -/
def Piece.chars : Piece → List Char
  | trivium t => t.chars
  | semicolon => [';']

/-- **Separators.** -/
abbrev Separator :=
  List Piece

/-- The characters of a separator. -/
def Separator.chars (s : Separator) : List Char :=
  s.flatMap Piece.chars

/-! ### Imports as they are written -/

/-- **A local name:** an identifier or a dot. -/
inductive LocalName where
  /-- An identifier. -/
  | word (w : Word)
  /-- The dot. -/
  | dot

/-- The characters of a local name. -/
def LocalName.chars : LocalName → List Char
  | word w => w.chars
  | dot => ['.']

/-- **An import as it is written:** a local name if there is one, and the path. -/
structure Spec where
  /-- The local name, and what stands behind it. -/
  name? : Option (LocalName × Gap)
  /-- The literal of the path. -/
  path : Literal
  /-- The path is not empty. -/
  path_ne : path.value ≠ []

/-- The characters of an import. -/
def Spec.chars (s : Spec) : List Char :=
  s.name?.elim [] (fun n => n.1.chars ++ n.2.chars) ++ s.path.chars

/-- An import is not the empty text. -/
theorem Spec.chars_ne (s : Spec) : s.chars ≠ [] := by
  rw [chars, ne_eq, List.append_eq_nil_iff, not_and]
  intro _
  cases s.path <;> exact List.cons_ne_nil _ _

/-- What an import says. -/
def Spec.said (s : Spec) : Option String × String :=
  (s.name?.map fun n => String.ofList n.1.chars, String.ofList s.path.value)

/-- **A declaration as it is written:** one import, or a block of them. -/
inductive Declaration where
  /-- One import. What stands before it keeps a local name apart from the word `import`. -/
  | single (gap : Gap) (spec : Spec) (apart : gap = [] → EndsWord spec.chars)
  /-- Imports in parentheses, with a separator before each and one behind the last. -/
  | block (gap : Gap) (specs : List (Separator × Spec)) (last : Separator)

/-- The characters of the imports of a block. -/
def blockChars (specs : List (Separator × Spec)) : List Char :=
  specs.flatMap fun s => s.1.chars ++ s.2.chars

/-- The characters of a declaration. -/
def Declaration.chars : Declaration → List Char
  | single gap spec _ => importWord.chars ++ gap.chars ++ spec.chars
  | block gap specs last =>
    importWord.chars ++ gap.chars ++ '(' :: (blockChars specs ++ last.chars ++ [')'])

/-- The imports of a declaration. -/
def Declaration.specs : Declaration → List Spec
  | single _ spec _ => [spec]
  | block _ specs _ => specs.map Prod.snd

/-! ### Headers as they are written -/

/-- **What follows the imports:** nothing, or any text that starts with an identifier other than
`import`. -/
inductive Tail where
  /-- The file ends. -/
  | nothing
  /-- Other text, kept apart from what stands before it. -/
  | text (gap : Gap) (gap_ne : gap ≠ []) (word : Word) (word_ne : word.chars ≠ importWord.chars)
    (rest : List Char) (ends : EndsWord rest)

/-- The characters behind the imports. -/
def Tail.chars : Tail → List Char
  | nothing => []
  | text gap _ word _ rest _ => gap.chars ++ (word.chars ++ rest)

/-- The characters of declarations. -/
def declarationChars (ds : List (Separator × Declaration)) : List Char :=
  ds.flatMap fun d => d.1.chars ++ d.2.chars

/-- **A file as it is written,** up to the end of its header and beyond. -/
structure WrittenHeader where
  /-- Whether the file starts with a byte order mark. -/
  mark : Bool
  /-- What stands before the word `package`. -/
  lead : Gap
  /-- What stands behind it. -/
  gap : Gap
  /-- The word and the name of the package do not touch. -/
  gap_ne : gap ≠ []
  /-- The name of the package. -/
  package : Word
  /-- The name is not the blank identifier. -/
  package_ne : package.chars ≠ ['_']
  /-- The declarations, with a separator before each. -/
  declarations : List (Separator × Declaration)
  /-- The name of the package and the first declaration do not touch. -/
  apart : ∀ d ∈ declarations.head?, d.1 ≠ []
  /-- The separator behind the last declaration. -/
  closing : Separator
  /-- What follows the imports. -/
  tail : Tail

namespace WrittenHeader

/-- The characters of a file, without a byte order mark. -/
def chars (w : WrittenHeader) : List Char :=
  w.lead.chars ++ (packageWord.chars ++ (w.gap.chars ++ (w.package.chars ++
    (declarationChars w.declarations ++ (w.closing.chars ++ w.tail.chars)))))

/-- **The text of a file.** -/
def text (w : WrittenHeader) : String :=
  String.ofList (if w.mark then '\uFEFF' :: w.chars else w.chars)

/-- The imports of a file, in order. -/
def imports (w : WrittenHeader) : List Spec :=
  w.declarations.flatMap fun d => d.2.specs

end WrittenHeader

/-! ### Where identifiers end -/

theorem endsWord_trivium (t : Trivium) (rest : List Char) : EndsWord (t.chars ++ rest) := by
  cases t with
  | blank c hc => exact endsWord_cons (isWordChar_of_isBlank hc)
  | lineComment text _ => exact endsWord_cons (by decide)
  | blockComment text _ => exact endsWord_cons (by decide)

/-- An identifier ends before trivia. -/
theorem endsWord_gap_of_ne {g : Gap} (h : g ≠ []) (rest : List Char) :
    EndsWord (g.chars ++ rest) := by
  cases g with
  | nil => exact absurd rfl h
  | cons t g =>
      rw [Gap.chars, List.flatMap_cons, List.append_assoc]
      exact endsWord_trivium t _

theorem endsWord_gap (g : Gap) (h : EndsWord rest) : EndsWord (g.chars ++ rest) := by
  by_cases hg : g = []
  · subst hg
    exact h
  · exact endsWord_gap_of_ne hg rest

/-- An identifier ends before a separator. -/
theorem endsWord_separator_of_ne {s : Separator} (h : s ≠ []) (rest : List Char) :
    EndsWord (s.chars ++ rest) := by
  cases s with
  | nil => exact absurd rfl h
  | cons p s =>
      rw [Separator.chars, List.flatMap_cons, List.append_assoc]
      cases p with
      | trivium t => exact endsWord_trivium t _
      | semicolon => exact endsWord_cons (by decide)

theorem endsWord_literal (l : Literal) (rest : List Char) : EndsWord (l.chars ++ rest) := by
  cases l with
  | interpreted value => exact endsWord_cons (by decide)
  | raw value _ => exact endsWord_cons (by decide)

theorem endsWord_append {cs : List Char} (hne : cs ≠ []) (h : EndsWord cs) (rest : List Char) :
    EndsWord (cs ++ rest) := by
  cases cs with
  | nil => exact absurd rfl hne
  | cons c cs => exact endsWord_cons (h c rfl)

theorem endsWord_tail (t : Tail) : EndsWord t.chars := by
  cases t with
  | nothing => exact endsWord_nil
  | text gap hgap word _ rest _ => exact endsWord_gap_of_ne hgap _

/-- **The name of the package ends** where it is meant to. -/
theorem WrittenHeader.endsWord_package (w : WrittenHeader) :
    EndsWord (declarationChars w.declarations ++ (w.closing.chars ++ w.tail.chars)) := by
  cases hds : w.declarations with
  | nil =>
      by_cases hclosing : w.closing = []
      · rw [hclosing]
        exact endsWord_tail w.tail
      · exact endsWord_separator_of_ne hclosing _
  | cons d ds =>
      have hsep : d.1 ≠ [] := w.apart d (by rw [hds]; rfl)
      rw [declarationChars, List.flatMap_cons, List.append_assoc, List.append_assoc]
      exact endsWord_separator_of_ne hsep _

/-! ### Reading imports -/

/-- **Imports that are read:** without a fault, and they say this. -/
def Yields (r : Except ScanError (List Import)) (said : List (Option String × String)) : Prop :=
  r.map (List.map Import.said) = .ok said

variable {said : List (Option String × String)}

theorem yields_withImport {i : Import} {later : Except ScanError (List Import)}
    (hpath : i.path ≠ "") (h : Yields later said) (line : Nat) :
    Yields (withImport i line later) (i.said :: said) := by
  cases later with
  | error e => cases h
  | ok is =>
      have his : is.map Import.said = said := Except.ok.inj h
      rw [withImport, if_neg hpath]
      simp [Yields, Except.map, his]

/-- **Separators are passed over** where a semicolon may stand. -/
theorem read_separator {α : Type} (read : Lexemes → α)
    (hread : ∀ line tail, read (.cons .semicolon line tail) = read tail)
    (s : Separator) (rest : List Char) (line : Nat) :
    ∃ line', read (lexemes (Separator.chars s ++ rest) line) = read (lexemes rest line') := by
  induction s generalizing line with
  | nil => exact ⟨line, rfl⟩
  | cons p s ih =>
      rw [Separator.chars, List.flatMap_cons, List.append_assoc, ← Separator.chars]
      cases p with
      | trivium t =>
          have ht := lexemes_gap [t] (Separator.chars s ++ rest) line
          rw [Gap.chars, List.flatMap_singleton] at ht
          rw [Piece.chars, ht]
          exact ih _
      | semicolon =>
          have hsemicolon : lexemes (';' :: (Separator.chars s ++ rest)) line =
              .cons .semicolon line (lexemes (Separator.chars s ++ rest) line) :=
            lexemes_sign (by decide) (by decide) rfl
          rw [Piece.chars, List.singleton_append, hsemicolon, hread]
          exact ih _

/-- The reader at the start of an import, inside a block or not. -/
def readSpec (inBlock : Bool) : Lexemes → Except ScanError (List Import) :=
  if inBlock then readBlock else readDeclaration

/-- The reader behind an import, inside a block or not. -/
def readOn (inBlock : Bool) : Lexemes → Except ScanError (List Import) :=
  if inBlock then readBlock else readDeclarations

/-- **One import** is read, with or without a local name. -/
theorem yields_spec (s : Spec) (inBlock : Bool)
    (h : ∀ line, Yields (readOn inBlock (lexemes rest line)) said) (line : Nat) :
    Yields (readSpec inBlock (lexemes (s.chars ++ rest) line)) (s.said :: said) := by
  obtain ⟨name?, path, hne⟩ := s
  have hpath : String.ofList path.value ≠ "" := by simpa using hne
  cases name? with
  | none =>
      rw [Spec.chars, Option.elim_none, List.nil_append, lexemes_literal]
      cases inBlock <;> exact yields_withImport hpath (h _) _
  | some n =>
      obtain ⟨name, gap⟩ := n
      have hname (line : Nat) :
          Yields (readImportPath inBlock (String.ofList name.chars) line
            (lexemes (gap.chars ++ (path.chars ++ rest)) line))
            ((some (String.ofList name.chars), String.ofList path.value) :: said) := by
        rw [lexemes_gap, lexemes_literal, readImportPath]
        cases inBlock <;> exact yields_withImport hpath (h _) _
      have hends : EndsWord (gap.chars ++ (path.chars ++ rest)) :=
        endsWord_gap _ (endsWord_literal _ _)
      rw [Spec.chars, Option.elim_some, List.append_assoc, List.append_assoc]
      cases name with
      | word w =>
          rw [LocalName.chars, lexemes_word w hends]
          cases inBlock <;> exact hname line
      | dot =>
          have hdot : lexemes ('.' :: (gap.chars ++ (path.chars ++ rest))) line =
              .cons .dot line (lexemes (gap.chars ++ (path.chars ++ rest)) line) :=
            lexemes_sign (by decide) (by decide) rfl
          rw [LocalName.chars, List.singleton_append, hdot]
          cases inBlock <;> exact hname line

/-- **The imports of a block** are read, up to its closing parenthesis. -/
theorem yields_block (specs : List (Separator × Spec)) (last : Separator)
    (h : ∀ line, Yields (readDeclarations (lexemes rest line)) said) (line : Nat) :
    Yields (readBlock (lexemes (blockChars specs ++ (last.chars ++ ')' :: rest)) line))
      (specs.map (fun s => s.2.said) ++ said) := by
  induction specs generalizing line with
  | nil =>
      obtain ⟨line', hlast⟩ :=
        read_separator readBlock (fun _ _ => rfl) last (')' :: rest) line
      have hclosing : lexemes (')' :: rest) line' = .cons .closing line' (lexemes rest line') :=
        lexemes_sign (by decide) (by decide) rfl
      rw [blockChars, List.flatMap_nil, List.nil_append, hlast, hclosing]
      exact h line'
  | cons s specs ih =>
      obtain ⟨line', hsep⟩ := read_separator readBlock (fun _ _ => rfl) s.1
        (s.2.chars ++ (blockChars specs ++ (last.chars ++ ')' :: rest))) line
      rw [blockChars, List.flatMap_cons, List.append_assoc, List.append_assoc, ← blockChars, hsep]
      exact yields_spec s.2 true ih line'

/-- **A declaration** is read, single or grouped. -/
theorem yields_declaration (d : Declaration)
    (h : ∀ line, Yields (readDeclarations (lexemes rest line)) said) (line : Nat) :
    Yields (readDeclarations (lexemes (d.chars ++ rest) line))
      (d.specs.map Spec.said ++ said) := by
  cases d with
  | single gap spec hapart =>
      have hends : EndsWord (gap.chars ++ (spec.chars ++ rest)) := by
        by_cases hgap : gap = []
        · subst hgap
          exact endsWord_append spec.chars_ne (hapart rfl) rest
        · exact endsWord_gap_of_ne hgap _
      rw [Declaration.chars, List.append_assoc, List.append_assoc, lexemes_word importWord hends,
        lexemes_gap]
      exact yields_spec spec false h _
  | block gap specs last =>
      have hends :
          EndsWord (gap.chars ++ '(' :: (blockChars specs ++ (last.chars ++ ')' :: rest))) :=
        endsWord_gap _ (endsWord_cons (by decide))
      have hopening (cs : List Char) (line : Nat) :
          lexemes ('(' :: cs) line = .cons .opening line (lexemes cs line) :=
        lexemes_sign (by decide) (by decide) rfl
      have hchars : (Declaration.block gap specs last).chars ++ rest = importWord.chars ++
          (gap.chars ++ '(' :: (blockChars specs ++ (last.chars ++ ')' :: rest))) := by
        simp [Declaration.chars]
      rw [hchars, lexemes_word importWord hends, lexemes_gap, hopening, Declaration.specs,
        List.map_map]
      exact yields_block specs last h _

/-- **What follows the imports** is not looked at. -/
theorem yields_tail (t : Tail) (line : Nat) :
    Yields (readDeclarations (lexemes t.chars line)) [] := by
  cases t with
  | nothing =>
      rw [Tail.chars, lexemes_eq, nextLexeme, skipTrivia]
      rfl
  | text gap hgap word hword rest hends =>
      have hne : String.ofList word.chars ≠ "import" :=
        fun heq => hword (String.ofList_inj.1 (heq.trans rfl))
      rw [Tail.chars, lexemes_gap, lexemes_word word hends, readDeclarations, if_neg hne]
      rfl

/-- **All declarations** are read, up to the end of the header. -/
theorem yields_declarations (ds : List (Separator × Declaration)) (closing : Separator) (t : Tail)
    (line : Nat) :
    Yields (readDeclarations (lexemes (declarationChars ds ++ (closing.chars ++ t.chars)) line))
      ((ds.flatMap fun d => d.2.specs).map Spec.said) := by
  induction ds generalizing line with
  | nil =>
      obtain ⟨line', hclosing⟩ :=
        read_separator readDeclarations (fun _ _ => rfl) closing t.chars line
      rw [declarationChars, List.flatMap_nil, List.nil_append, hclosing]
      exact yields_tail t line'
  | cons d ds ih =>
      obtain ⟨line', hsep⟩ := read_separator readDeclarations (fun _ _ => rfl) d.1
        (d.2.chars ++ (declarationChars ds ++ (closing.chars ++ t.chars))) line
      rw [declarationChars, List.flatMap_cons, List.append_assoc, List.append_assoc,
        ← declarationChars, hsep, List.flatMap_cons, List.map_append]
      exact yields_declaration d.2 ih line'

/-! ### Reading the header -/

/-- A file does not start with a byte order mark of its own. -/
theorem WrittenHeader.dropByteOrderMark_chars (w : WrittenHeader) :
    Text.dropByteOrderMark w.chars = w.chars := by
  rw [WrittenHeader.chars]
  cases w.lead with
  | nil => rfl
  | cons t lead =>
      rw [Gap.chars, List.flatMap_cons, List.append_assoc]
      cases t with
      | blank c hc =>
          have hmark : c ≠ '\uFEFF' := by
            rintro rfl
            cases hc
          exact if_neg hmark
      | lineComment text _ => rfl
      | blockComment text _ => rfl

theorem WrittenHeader.dropByteOrderMark_text (w : WrittenHeader) :
    Text.dropByteOrderMark w.text.toList = w.chars := by
  rw [WrittenHeader.text, String.toList_ofList]
  cases w.mark with
  | true => rfl
  | false => exact w.dropByteOrderMark_chars

/-- **Every layout is read.** Whichever way a header is written down, its package name and the local
names and paths of its imports are read back, in order. -/
theorem scanHeader_text (w : WrittenHeader) :
    (scanHeader w.text).map Header.said =
      .ok (String.ofList w.package.chars, w.imports.map Spec.said) := by
  have hname : String.ofList w.package.chars ≠ "_" :=
    fun heq => w.package_ne (String.ofList_inj.1 heq)
  have hpackage : String.ofList packageWord.chars = "package" := rfl
  rw [scanHeader, w.dropByteOrderMark_text, WrittenHeader.chars, lexemes_gap,
    lexemes_word packageWord (endsWord_gap_of_ne w.gap_ne _)]
  rw [readHeader, if_pos hpackage, lexemes_gap, lexemes_word w.package w.endsWord_package,
    readPackageName, if_neg hname]
  have hyields := yields_declarations w.declarations w.closing w.tail
    (Cursor.lineAfterAll (Cursor.lineAfterAll 1 w.lead.chars) w.gap.chars)
  generalize readDeclarations _ = r at hyields ⊢
  cases r with
  | error e => cases hyields
  | ok is =>
      have his : is.map Import.said = w.imports.map Spec.said := Except.ok.inj hyields
      simp [Except.map, Header.said, his]

example :
    (⟨true, [], [.blank ' ' rfl], by simp, ⟨"main".toList, by decide⟩, by decide,
      [([.semicolon], .block [] [([.trivium (.lineComment " all of it".toList (by decide))],
        ⟨some (.dot, []), .raw "fmt".toList (by decide), by decide⟩)] [])],
      by simp, [], .nothing⟩ : WrittenHeader).text =
      "\uFEFFpackage main;import(// all of it\n.\x60fmt\x60)" := by
  decide

end Source

end GoPlanner
