import GoPlanner.Layout
import GoPlanner.Proofs.Path

/-!
# Files of the Build Directory

All names that are made from a hash have the same number of characters for it, and the files
of the four kinds that invocations write end in four different characters. So two files have
one name only if they are of one kind, and their import paths have one hash.

## Main definitions

* `Artifact`: a file that an invocation writes.
* `Artifact.Alike`: files that have one name.

## Main results

* `length_hashName`, `slash_notMem_hashName`, `getLast?_hashName`: the form of a hash.
* `Artifact.name_eq_iff`, `Artifact.same_path_iff`: when two files are one.
-/

namespace GoPlanner

/-! ### Hashes -/

namespace Base64

/-- Three bytes give four characters. -/
theorem length_encode (bytes : List UInt8) :
    (encode bytes).length = (bytes.length + 2) / 3 * 4 := by
  fun_induction encode bytes with
  | case1 a b c rest n ih =>
      simp only [List.length_cons, ih]
      omega
  | case2 a b n => simp
  | case3 a n => simp
  | case4 => rfl

theorem digit_mem (n : Nat) : digit n ∈ alphabet := by
  have hlt : n % 64 < alphabet.length := Nat.mod_lt n (by decide)
  have hdigit : digit n = alphabet[n % 64] := by simp [digit, hlt]
  exact hdigit ▸ List.getElem_mem hlt

/-- The characters of an encoding. -/
theorem mem_of_mem_encode {bytes : List UInt8} {ch : Char} (h : ch ∈ encode bytes) :
    ch ∈ alphabet ∨ ch = '=' := by
  have hdigit (n : Nat) (hch : ch = digit n) : ch ∈ alphabet := hch ▸ digit_mem n
  fun_induction encode bytes with
  | case1 a b c rest n ih =>
      simp only [List.mem_cons] at h
      rcases h with h | h | h | h | h
      · exact Or.inl (hdigit _ h)
      · exact Or.inl (hdigit _ h)
      · exact Or.inl (hdigit _ h)
      · exact Or.inl (hdigit _ h)
      · exact ih h
  | case2 a b n =>
      simp only [List.mem_cons, List.not_mem_nil, or_false] at h
      rcases h with h | h | h | h
      · exact Or.inl (hdigit _ h)
      · exact Or.inl (hdigit _ h)
      · exact Or.inl (hdigit _ h)
      · exact Or.inr h
  | case3 a n =>
      simp only [List.mem_cons, List.not_mem_nil, or_false] at h
      rcases h with h | h | h | h
      · exact Or.inl (hdigit _ h)
      · exact Or.inl (hdigit _ h)
      · exact Or.inr h
      · exact Or.inr h
  | case4 => simp at h

/-- **An encoding is filled up** when the bytes do not come in groups of three. -/
theorem getLast?_encode {bytes : List UInt8} (h : bytes.length % 3 ≠ 0) :
    (encode bytes).getLast? = some '=' := by
  fun_induction encode bytes with
  | case1 a b c rest n ih =>
      have hrest : (encode rest).getLast? = some '=' := ih (by simp at h; omega)
      simp [List.getLast?_cons, hrest]
  | case2 a b n => rfl
  | case3 a n => rfl
  | case4 => simp at h

end Base64

@[simp] theorem length_bigEndian (n : BitVec 128) : (bigEndian n).length = 16 := by
  simp [bigEndian]

/-- **A hash has twenty-four characters.** -/
theorem length_hashName (s : String) : (hashName s).toList.length = 24 := by
  simp [hashName, Base64.length_encode]

/-- **A hash has no slash.** -/
theorem slash_notMem_hashName (s : String) : '/' ∉ (hashName s).toList := by
  intro h
  rw [hashName, String.toList_ofList] at h
  rcases Base64.mem_of_mem_encode h with h | h
  · exact absurd h (by decide)
  · cases h

/-- **A hash ends in a filling character.** -/
theorem getLast?_hashName (s : String) : (hashName s).toList.getLast? = some '=' := by
  rw [hashName, String.toList_ofList]
  exact Base64.getLast?_encode (by simp)

/-! ### Files -/

/-- **A file that an invocation writes.** -/
inductive Artifact where
  /-- The archive of a package. -/
  | archive (importPath : String)
  /-- The symbols of its assembly files. -/
  | symbols (importPath : String)
  /-- The object of one of them. -/
  | object (importPath file : String)
  /-- The executable. -/
  | executable
deriving DecidableEq

namespace Artifact

/-- The name of a file. -/
def name : Artifact → String
  | archive importPath => hashName importPath ++ ".a"
  | symbols importPath => "symabis_" ++ hashName importPath
  | object importPath file => hashName importPath ++ "_" ++ file ++ ".o"
  | executable => "a.out"

/-- The path of a file. -/
def path (layout : Layout) (a : Artifact) : Path :=
  layout.base.child a.name

@[simp] theorem path_archive (layout : Layout) (s : String) :
    (archive s).path layout = layout.archive s :=
  rfl

@[simp] theorem path_symbols (layout : Layout) (s : String) :
    (symbols s).path layout = layout.symbols s :=
  rfl

@[simp] theorem path_object (layout : Layout) (s file : String) :
    (object s file).path layout = layout.object s file :=
  rfl

@[simp] theorem path_executable (layout : Layout) :
    executable.path layout = layout.executable :=
  rfl

/-- **Files that have one name:** they are of one kind and made for one hash. -/
def Alike : Artifact → Artifact → Prop
  | archive s, archive s' => hashName s = hashName s'
  | symbols s, symbols s' => hashName s = hashName s'
  | object s file, object s' file' => hashName s = hashName s' ∧ file = file'
  | executable, executable => True
  | _, _ => False

/-- The last character of the name of a file. -/
def mark : Artifact → Char
  | archive _ => 'a'
  | symbols _ => '='
  | object _ _ => 'o'
  | executable => 't'

theorem getLast?_name (a : Artifact) : a.name.toList.getLast? = some a.mark := by
  cases a with
  | archive s => simp [name, mark]
  | symbols s =>
      rw [name, String.toList_append, List.getLast?_append, getLast?_hashName]
      rfl
  | object s file =>
      rw [name, String.toList_append, List.getLast?_append]
      rfl
  | executable => rfl

/-- **Files have one name** exactly if they are alike. -/
theorem name_eq_iff {a b : Artifact} : a.name = b.name ↔ a.Alike b := by
  constructor
  · intro h
    have hmark : a.mark = b.mark := by
      have hlast := congrArg (fun s => s.toList.getLast?) h
      simpa only [getLast?_name, Option.some.injEq] using hlast
    cases a <;> cases b
    case archive.archive s s' =>
      have hlist := congrArg String.toList h
      simp only [name, String.toList_append] at hlist
      exact String.toList_inj.1 (List.append_inj_left' hlist rfl)
    case symbols.symbols s s' =>
      have hlist := congrArg String.toList h
      simp only [name, String.toList_append] at hlist
      exact String.toList_inj.1 (List.append_inj_right hlist rfl)
    case object.object s file s' file' =>
      have hlist := congrArg String.toList h
      simp only [name, String.toList_append, List.append_assoc] at hlist
      obtain ⟨hhash, hrest⟩ := List.append_inj hlist
        ((length_hashName s).trans (length_hashName s').symm)
      have hfile := List.append_inj_left' (List.append_inj_right hrest rfl) rfl
      exact ⟨String.toList_inj.1 hhash, String.toList_inj.1 hfile⟩
    case executable.executable => trivial
    -- The names of files of two kinds end in different characters.
    all_goals simp [mark] at hmark
  · intro h
    match a, b, h with
    | archive s, archive s', h => exact congrArg (· ++ ".a") h
    | symbols s, symbols s', h => exact congrArg ("symabis_" ++ ·) h
    | object s file, object s' _, ⟨h, rfl⟩ => exact congrArg (· ++ "_" ++ file ++ ".o") h
    | executable, executable, _ => rfl

/-- The name of a file is a plain one, if that of the assembly file is. -/
theorem isPlain_name {a : Artifact} (h : ∀ s file, a = object s file → '/' ∉ file.toList) :
    IsPlain a.name := by
  have hhash := slash_notMem_hashName
  cases a with
  | archive s =>
      have hslash : '/' ∉ (archive s).name.toList := by simp [name, hhash]
      exact isPlain_of_mem hslash (c := 'a') (by simp [name]) (by decide)
  | symbols s =>
      have hslash : '/' ∉ (symbols s).name.toList := by simp [name, hhash]
      exact isPlain_of_mem hslash (c := 's') (by simp [name]) (by decide)
  | object s file =>
      have hslash : '/' ∉ (object s file).name.toList := by simp [name, hhash, h s file rfl]
      exact isPlain_of_mem hslash (c := 'o') (by simp [name]) (by decide)
  | executable => exact isPlain_of_mem (c := 't') (by decide) (by decide) (by decide)

/-- **Two paths are that of one file** exactly if the files are alike. -/
theorem same_path_iff (layout : Layout) {a b : Artifact} (ha : IsPlain a.name)
    (hb : IsPlain b.name) : (a.path layout).same (b.path layout) = true ↔ a.Alike b := by
  rw [path, path, Path.same_child_iff ha hb, name_eq_iff]

end Artifact

end GoPlanner
