import GoPlanner.Proofs.ModuleFile.Lines
import Mathlib.Tactic.TFAE

/-!
# Reading Module Files Back

What is read from a module file can be written, and is read back from the written form. A token has
no line feed, since it stands on one line; the words before the first arrow of an entry are no
arrows; and a lone parenthesis behind the directive for the module path would have opened a block.

## Main definitions

* `Replacement.Target.Fits`, `Replacement.IsWritable`, `ModuleFile.IsWritable`: what can be written.

## Main results

* `ModuleFile.replacementOf_eq_ok_iff`: the entries of a replacement.
* `ModuleFile.Read.isWritable_lines`: what is read line by line can be written.
* `ModuleFile.isWritable_tfae`: what is read is what can be written and read back.
-/

namespace GoPlanner

/-- **What stands for a replaced path fits** its written form: directories are written as
directories, and modules are not. -/
def Replacement.Target.Fits : Replacement.Target → Prop
  | directory path => ModuleFile.isDirectoryTarget path.text = true
  | module path _ => ModuleFile.isDirectoryTarget path = false

/-- **Replacements that can be written.** -/
structure Replacement.IsWritable (r : Replacement) : Prop where
  /-- No word for what is replaced is an arrow. -/
  old : "=>" ∉ r.old
  /-- What stands for it fits. -/
  target : r.target.Fits
  /-- No word has a line feed. -/
  feed : ∀ word ∈ r.old ++ r.target.words, '\n' ∉ word.toList

/-- **Module files that can be written.** -/
structure ModuleFile.IsWritable (m : ModuleFile) : Prop where
  /-- There is a module path. -/
  nonempty : m.modulePath ≠ ""
  /-- It does not open a block. -/
  opening : m.modulePath ≠ "("
  /-- It has no line feed. -/
  feed : '\n' ∉ m.modulePath.toList
  /-- Each replacement can be written. -/
  replacements : ∀ r ∈ m.replacements, r.IsWritable

namespace ModuleFile

variable {cs : List Char} {words args : List String} {r : Replacement} {m : ModuleFile}
  {read read' : Read} {number : Nat}

/-! ### Entries -/

theorem oldOf_eq_ok_iff {path : String} {version : Option String} :
    oldOf words = .ok (path, version) ↔ words = path :: version.toList := by
  rw [oldOf.eq_def]
  split
  · cases version <;> simp
  · cases version <;> simp
  · rename_i hone htwo
    refine iff_of_false (by simp) ?_
    cases version with
    | none => exact hone path
    | some version => exact htwo path version

theorem targetOf_eq_ok_iff {target : Replacement.Target} :
    targetOf words = .ok target ↔ words = target.words ∧ target.Fits := by
  constructor
  · intro h
    rw [targetOf.eq_def] at h
    split at h
    · split at h
      · obtain rfl := Except.ok.inj h
        exact ⟨rfl, ‹_›⟩
      · cases h
    · split at h
      · cases h
      · rename_i path version hmodule
        obtain rfl := Except.ok.inj h
        have hfits : isDirectoryTarget path = false := by simpa using hmodule
        exact ⟨rfl, hfits⟩
    · cases h
  · rintro ⟨rfl, hfits⟩
    cases target with
    | directory path =>
        have hdir : isDirectoryTarget path.text = true := hfits
        rw [Replacement.Target.words, targetOf, if_pos hdir]
    | module path version =>
        have hdir : isDirectoryTarget path = false := hfits
        rw [Replacement.Target.words, targetOf, hdir]
        rfl

/-- An entry is read on both sides of its first arrow. -/
theorem replacementOf_split {before after : List String} (h : "=>" ∉ before) :
    replacementOf (before ++ "=>" :: after) =
      (oldOf before).bind (fun old =>
        (targetOf after).map (fun target => ⟨old.1, old.2, target⟩)) := by
  have hbefore : ∀ a ∈ before, (a != "=>") = true := fun _ ha => bne_of_notMem h ha
  have htake : (before ++ "=>" :: after).takeWhile (fun a => a != "=>") = before := by
    rw [List.takeWhile_append_of_pos hbefore]
    simp
  have hdrop : (before ++ "=>" :: after).dropWhile (fun a => a != "=>") = "=>" :: after := by
    rw [List.dropWhile_append_of_pos hbefore]
    simp
  rw [replacementOf, if_pos (by simp), htake, hdrop]
  cases oldOf before with
  | error fault => rfl
  | ok old =>
      rw [List.drop_one, List.tail_cons]
      cases targetOf after with
      | error fault => rfl
      | ok target => rfl

/-- **The entries of a replacement:** the words for what is replaced, the first arrow, and the words
for what stands for it. -/
theorem replacementOf_eq_ok_iff :
    replacementOf words = .ok r ↔
      words = r.old ++ "=>" :: r.target.words ∧ "=>" ∉ r.old ∧ r.target.Fits := by
  constructor
  · intro h
    have harrow : "=>" ∈ words := by
      by_contra hnone
      rw [replacementOf, if_neg (by simpa using hnone)] at h
      cases h
    obtain ⟨before, after, rfl, hbefore⟩ := List.eq_append_cons_of_mem harrow
    rw [replacementOf_split hbefore] at h
    cases hold : oldOf before with
    | error fault => simp [hold, Except.bind] at h
    | ok old =>
        cases htarget : targetOf after with
        | error fault => simp [hold, htarget, Except.bind, Except.map] at h
        | ok target =>
            rw [hold, htarget] at h
            obtain rfl := Except.ok.inj h
            obtain rfl := oldOf_eq_ok_iff.1 hold
            obtain ⟨rfl, hfits⟩ := targetOf_eq_ok_iff.1 htarget
            exact ⟨rfl, hbefore, hfits⟩
  · rintro ⟨rfl, hold, hfits⟩
    have hread : oldOf r.old = .ok (r.oldPath, r.oldVersion) := oldOf_eq_ok_iff.2 rfl
    rw [replacementOf_split hold, hread, targetOf_eq_ok_iff.2 ⟨rfl, hfits⟩]
    rfl

/-! ### From the written form -/

theorem replacementOf_words (h : r.IsWritable) :
    replacementOf (r.old ++ "=>" :: r.target.words) = .ok r :=
  replacementOf_eq_ok_iff.2 ⟨rfl, h.old, h.target⟩

/-- **The line of the module path** is read. -/
theorem Read.line_moduleWords {path : String} (hne : path ≠ "") (hopening : path ≠ "(") :
    Read.line ⟨none, [], none⟩ number (" ".intercalate (moduleWords path)).toList =
      .ok ⟨some path, [], none⟩ := by
  refine line_directive rfl (tokens_moduleWords path) ?_
  simp [directive, hne, hopening]

/-- **The line of a replacement** is read. -/
theorem Read.line_replaceWords (hblock : read.block = none) (h : r.IsWritable) :
    read.line number (" ".intercalate (replaceWords r)).toList =
      .ok { read with replacements := read.replacements ++ [r] } := by
  refine line_directive hblock (tokens_replaceWords r) ?_
  have hargs : r.old ++ "=>" :: r.target.words ≠ ["("] := by
    simp [Replacement.old]
  rw [directive.eq_def, if_neg hargs, if_neg (by decide), if_pos rfl, addReplacement,
    replacementOf_words h]
  rfl

/-- **The lines of replacements** are read one after the other. -/
theorem Read.lines_replaceWords {rs : List Replacement} (hrs : ∀ r ∈ rs, r.IsWritable)
    (hblock : read.block = none) :
    read.lines number ((rs.map replaceWords).map (fun words => (" ".intercalate words).toList)) =
      .ok { read with replacements := read.replacements ++ rs } := by
  induction rs generalizing read number with
  | nil => simp [lines]
  | cons r rs ih =>
      obtain ⟨hr, hrs⟩ := List.forall_mem_cons.1 hrs
      rw [List.map_cons, List.map_cons, lines, line_replaceWords hblock hr]
      dsimp only
      rw [ih hrs (by exact hblock)]
      simp

/-- **The written form is read back.** -/
theorem parse_render (h : m.IsWritable) : parse m.render = .ok m := by
  rw [parse, lines_render h.feed fun r hr => (h.replacements r hr).feed, directives,
    List.map_cons, Read.lines, Read.line_moduleWords h.nonempty h.opening]
  dsimp only
  rw [Read.lines_replaceWords h.replacements rfl]
  rfl

/-- Backslashes and quotes are escaped, and an arrow is in quotes where it is no arrow. -/
example : render ⟨"a b", [⟨"c\\d", some "\x22", .module "=>" "v1"⟩]⟩ =
    "module \x22a b\x22\nreplace \x22c\\\\d\x22 \x22\\\x22\x22 => \x22=>\x22 \x22v1\x22\n" := by
  decide +kernel

/-! ### What is read -/

/-- A quoted string and what follows it are made of the characters of the text. -/
theorem readQuoted_subset {quote : Char} {q : List Char × List Char}
    (h : readQuoted quote cs = some q) : q.1 ⊆ cs ∧ q.2 ⊆ cs := by
  fun_induction readQuoted quote cs generalizing q with
  | case1 => cases h
  | case2 cs =>
      obtain rfl := Option.some.inj h
      exact ⟨List.nil_subset _, List.subset_cons_self _ _⟩
  | case3 => cases h
  | case4 c _ _ escaped cs' ih =>
      obtain ⟨q', hq', rfl⟩ := Option.map_eq_some_iff.1 h
      obtain ⟨hvalue, hrest⟩ := ih hq'
      exact ⟨List.subset_cons_of_subset c (List.cons_subset_cons escaped hvalue),
        List.subset_cons_of_subset c (List.subset_cons_of_subset escaped hrest)⟩
  | case5 c cs _ _ ih =>
      obtain ⟨q', hq', rfl⟩ := Option.map_eq_some_iff.1 h
      obtain ⟨hvalue, hrest⟩ := ih hq'
      exact ⟨List.cons_subset_cons c hvalue, List.subset_cons_of_subset c hrest⟩

/-- A word and what follows it are made of the characters of the text. -/
theorem readWord_subset (last : Char) (cs : List Char) :
    (readWord last cs).1 ⊆ last :: cs ∧
      ∀ rest, (readWord last cs).2 = some rest → rest ⊆ cs := by
  fun_induction readWord last cs with
  | case1 => simp
  | case2 => simp
  | case3 => simp
  | case4 last c cs _ _ r ih =>
      exact ⟨List.cons_subset_cons last ih.1,
        fun rest hrest => List.subset_cons_of_subset c (ih.2 rest hrest)⟩

/-- **Tokens** are made of the characters of the line. -/
theorem tokens_subset {ts : List (List Char)} (h : tokens cs = some ts) :
    ∀ token ∈ ts, token ⊆ cs := by
  fun_induction tokens cs generalizing ts with
  | case1 =>
      obtain rfl := Option.some.inj h
      simp
  | case2 c rest _ ih =>
      exact fun token htoken => List.subset_cons_of_subset c (ih h token htoken)
  | case3 =>
      obtain rfl := Option.some.inj h
      simp
  | case4 rest _ _ ih =>
      obtain ⟨ts', hts', rfl⟩ := Option.map_eq_some_iff.1 h
      refine List.forall_mem_cons.2
        ⟨List.cons_subset_cons '/' (List.takeWhile_subset _), fun token htoken => ?_⟩
      exact List.subset_cons_of_subset '/'
        (List.Subset.trans (ih hts' token htoken) (List.dropWhile_suffix _).subset)
  | case5 => cases h
  | case6 c rest _ _ _ q hq ih =>
      obtain ⟨ts', hts', rfl⟩ := Option.map_eq_some_iff.1 h
      obtain ⟨hvalue, hrest⟩ := readQuoted_subset hq
      exact List.forall_mem_cons.2 ⟨List.subset_cons_of_subset c hvalue,
        fun token htoken =>
          List.subset_cons_of_subset c (List.Subset.trans (ih hts' token htoken) hrest)⟩
  | case7 c rest _ _ _ word hword =>
      obtain rfl := Option.some.inj h
      have hsubset := (readWord_subset c rest).1
      rw [hword] at hsubset
      simpa using hsubset
  | case8 c rest _ _ _ word rest' hword ih =>
      obtain ⟨ts', hts', rfl⟩ := Option.map_eq_some_iff.1 h
      have hsubset := readWord_subset c rest
      rw [hword] at hsubset
      exact List.forall_mem_cons.2 ⟨hsubset.1, fun token htoken =>
        List.subset_cons_of_subset c
          (List.Subset.trans (ih hts' token htoken) (hsubset.2 rest' rfl))⟩

/-- **What has been read can be written.** -/
structure Read.IsWritable (read : Read) : Prop where
  /-- The path of the module, if it has been read. -/
  modulePath : ∀ path ∈ read.modulePath, path ≠ "" ∧ path ≠ "(" ∧ '\n' ∉ path.toList
  /-- The replacements. -/
  replacements : ∀ r ∈ read.replacements, r.IsWritable

/-- An entry without line feeds is a replacement that can be written. -/
theorem isWritable_of_replacementOf (h : replacementOf words = .ok r)
    (hfeed : ∀ word ∈ words, '\n' ∉ word.toList) : r.IsWritable := by
  obtain ⟨rfl, hold, hfits⟩ := replacementOf_eq_ok_iff.1 h
  refine ⟨hold, hfits, fun word hword => hfeed word ?_⟩
  rcases List.mem_append.1 hword with hword | hword
  · exact List.mem_append_left _ hword
  · exact List.mem_append_right _ (List.mem_cons_of_mem _ hword)

namespace Read

theorem IsWritable.addReplacement (h : read.IsWritable)
    (hread : read.addReplacement words = .ok read')
    (hfeed : ∀ word ∈ words, '\n' ∉ word.toList) : read'.IsWritable := by
  obtain ⟨r, hr, rfl⟩ := addReplacement_ok_iff.1 hread
  refine ⟨h.modulePath, fun r' hr' => ?_⟩
  rcases List.mem_append.1 hr' with hr' | hr'
  · exact h.replacements r' hr'
  · exact List.mem_singleton.1 hr' ▸ isWritable_of_replacementOf hr hfeed

/-- A line inside a block. -/
theorem IsWritable.entry {verb : String} (h : read.IsWritable)
    (hread : read.entry verb words = .ok read') (hfeed : ∀ word ∈ words, '\n' ∉ word.toList) :
    read'.IsWritable := by
  rcases entry_ok hread with ⟨-, rfl⟩ | ⟨-, -, hadd⟩ | ⟨-, -, rfl⟩
  · exact ⟨h.modulePath, h.replacements⟩
  · exact h.addReplacement hadd hfeed
  · exact h

/-- A line outside blocks. A path of a module that is `(` would have opened a block. -/
theorem IsWritable.directive {verb : String} (h : read.IsWritable)
    (hread : read.directive number verb args = .ok read')
    (hfeed : ∀ word ∈ args, '\n' ∉ word.toList) : read'.IsWritable := by
  rcases directive_ok hread with ⟨-, rfl⟩ | ⟨hargs, -, -, path, rfl, hne, rfl⟩ | ⟨-, -, hadd⟩ |
    ⟨-, -, -, rfl⟩
  · exact ⟨h.modulePath, h.replacements⟩
  · refine ⟨fun path' hpath' => ?_, h.replacements⟩
    obtain rfl : path = path' := by simpa using hpath'
    refine ⟨hne, ?_, hfeed path List.mem_cons_self⟩
    rintro rfl
    exact hargs rfl
  · exact h.addReplacement hadd hfeed
  · exact h

/-- **One line** keeps what has been read writable. -/
theorem IsWritable.line (h : read.IsWritable) (hcs : '\n' ∉ cs)
    (hread : read.line number cs = .ok read') : read'.IsWritable := by
  obtain ⟨hsome, hread⟩ := line_ok_iff.1 hread
  have hfeed : ∀ word ∈ wordsOf cs, '\n' ∉ word.toList := fun word hword hmem =>
    hcs (tokens_subset (tokens_eq_wordsOf hsome) _ (List.mem_map_of_mem hword) hmem)
  split at hread
  · exact hread ▸ h
  · rename_i hwords _
    exact h.entry hread (hwords ▸ hfeed)
  · rename_i hwords _
    exact h.directive hread fun word hword => hfeed word (hwords ▸ List.mem_cons_of_mem _ hword)

/-- **All lines** do. -/
theorem IsWritable.lines {ls : List (List Char)} (h : read.IsWritable) (hls : ∀ l ∈ ls, '\n' ∉ l)
    (hread : read.lines number ls = .ok read') : read'.IsWritable := by
  induction ls generalizing read number with
  | nil => exact Except.ok.inj hread ▸ h
  | cons l ls ih =>
      obtain ⟨hl, hls⟩ := List.forall_mem_cons.1 hls
      rw [Read.lines] at hread
      cases hline : read.line number l with
      | error e => simp [hline] at hread
      | ok read₁ =>
          simp only [hline] at hread
          exact ih (h.line hl hline) hls hread

end Read

/-- **What is read from a text** can be written. -/
theorem isWritable_of_parse {text : String} (h : parse text = .ok m) : m.IsWritable := by
  have hstart : Read.IsWritable ⟨none, [], none⟩ := ⟨by simp, by simp⟩
  have hwritable := hstart.lines (fun l hl => Text.notMem_of_mem_lines hl) (parse_ok_iff.1 h)
  obtain ⟨hne, hopening, hfeed⟩ := hwritable.modulePath m.modulePath rfl
  exact ⟨hne, hopening, hfeed, hwritable.replacements⟩

/-- **The round trip of module files.** A module file is read back from its written form exactly if
it can be written, and exactly if it is what some text is read as. -/
theorem isWritable_tfae (m : ModuleFile) :
    List.TFAE [m.IsWritable, parse m.render = .ok m, ∃ text, parse text = .ok m] := by
  tfae_have 1 → 2 := parse_render
  tfae_have 2 → 3 := fun h => ⟨_, h⟩
  tfae_have 3 → 1 := fun ⟨_, h⟩ => isWritable_of_parse h
  tfae_finish

end ModuleFile

end GoPlanner
