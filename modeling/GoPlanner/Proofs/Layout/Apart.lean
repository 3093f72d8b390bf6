import GoPlanner.Proofs.Layout
import Mathlib.Algebra.Group.Nat.Defs
import Mathlib.Data.List.Nodup
import Mathlib.Tactic.TFAE

/-!
# No Two Files of the Build Directory Clash

The name of a package in the build directory tells its hash: a number of 128 bits is determined by
its sixteen bytes, and these by their encoding. All names have the same length, and the
files of different kinds end in different characters, so the path of a file tells its kind, the
hash, and the name of the assembly file.

## Main definitions

* `Artifact.Kind`: the kinds of files.
* `Layout.Names`: the paths of the files of one kind.

## Main results

* `bigEndian_injective`, `Base64.encode_injective`: numbers and bytes are determined by what is
  written for them.
* `hashName_eq_iff`: import paths have one name exactly if they have one hash.
* `Layout.Names.kind_eq`: a path belongs to files of one kind only.
* `Layout.names_apart`: what the paths of two files tell about them.
-/

namespace GoPlanner

/-! ### Numbers and their bytes -/

/-- A number is determined by its digits. -/
theorem eq_of_digits (base k : Nat) {n m : Nat} (hn : n < base ^ k) (hm : m < base ^ k)
    (h : ∀ i < k, n / base ^ i % base = m / base ^ i % base) : n = m := by
  induction k generalizing n m with
  | zero =>
      rw [Nat.pow_zero, Nat.lt_one_iff] at hn hm
      rw [hn, hm]
  | succ k ih =>
      have hlow : n % base = m % base := by simpa using h 0 k.succ_pos
      have hhigh : n / base = m / base := by
        refine ih (Nat.div_lt_of_lt_mul (by rwa [← Nat.pow_succ']))
          (Nat.div_lt_of_lt_mul (by rwa [← Nat.pow_succ'])) fun i hi => ?_
        simpa only [Nat.div_div_eq_div_mul, ← Nat.pow_succ'] using h (i + 1) (Nat.succ_lt_succ hi)
      rw [← Nat.div_add_mod n base, ← Nat.div_add_mod m base, hlow, hhigh]

/-- **A number is determined by its bytes.** -/
theorem bigEndian_injective : Function.Injective bigEndian := by
  intro n m h
  have hbytes := List.map_inj_left.1 h
  refine BitVec.eq_of_toNat_eq (eq_of_digits 256 16 n.isLt m.isLt fun i hi => ?_)
  have hplace : 15 - (15 - i) = i := by omega
  have hbyte := congrArg UInt8.toNat (hbytes (15 - i) (List.mem_range.2 (by omega)))
  rwa [UInt8.toNat_ofNat', UInt8.toNat_ofNat', hplace] at hbyte

/-! ### Bytes and their encoding -/

namespace Base64

/-- The six bits that a character stands for. -/
def value (c : Char) : Nat :=
  alphabet.idxOf c

/-- **Reading an encoding,** four characters at a time. -/
def decode : List Char → List UInt8
  | p :: q :: r :: s :: rest =>
    let first := UInt8.ofNat (value p * 4 + value q / 16)
    let second := UInt8.ofNat (value q % 16 * 16 + value r / 4)
    let third := UInt8.ofNat (value r % 4 * 64 + value s)
    if r = '=' then [first]
    else if s = '=' then [first, second]
    else first :: second :: third :: decode rest
  | _ => []

theorem value_digit (n : Nat) : value (digit n) = n % 64 := by
  have hlt : n % 64 < alphabet.length := Nat.mod_lt n (by decide)
  have hdigit : digit n = alphabet[n % 64] := by simp [digit, hlt]
  have hnodup : alphabet.Nodup := by decide
  rw [value, hdigit, hnodup.idxOf_getElem]

/-- The filling character carries no bits. -/
theorem digit_ne (n : Nat) : digit n ≠ '=' := by
  have hfilling : '=' ∉ alphabet := by decide
  exact fun h => hfilling (h ▸ digit_mem n)

theorem ofNat_eq {a : UInt8} {n : Nat} (h : n % 256 = a.toNat) : UInt8.ofNat n = a :=
  UInt8.toNat_inj.1 (by rw [UInt8.toNat_ofNat']; exact h)

/-- **An encoding is read back.** -/
theorem decode_encode (bytes : List UInt8) : decode (encode bytes) = bytes := by
  have hbyte (a : UInt8) : a.toNat < 256 := a.toNat_lt
  fun_induction encode bytes with
  | case1 a b c rest n ih =>
      have ha := hbyte a
      have hb := hbyte b
      have hc := hbyte c
      rw [decode, if_neg (digit_ne _), if_neg (digit_ne _), ih]
      simp only [value_digit]
      rw [ofNat_eq (a := a) (by omega), ofNat_eq (a := b) (by omega), ofNat_eq (a := c) (by omega)]
  | case2 a b n =>
      have ha := hbyte a
      have hb := hbyte b
      rw [decode, if_neg (digit_ne _), if_pos rfl]
      simp only [value_digit]
      rw [ofNat_eq (a := a) (by omega), ofNat_eq (a := b) (by omega)]
  | case3 a n =>
      have ha := hbyte a
      rw [decode, if_pos rfl]
      simp only [value_digit]
      rw [ofNat_eq (a := a) (by omega)]
  | case4 => rfl

/-- **Bytes are determined by their encoding.** -/
theorem encode_injective : Function.Injective encode :=
  Function.LeftInverse.injective decode_encode

end Base64

/-- **Import paths have one name** exactly if they have one hash. -/
theorem hashName_eq_iff {s s' : String} :
    hashName s = hashName s' ↔ Fnv.hash (Text.bytes s) = Fnv.hash (Text.bytes s') := by
  rw [hashName, hashName, String.ofList_inj]
  exact (Base64.encode_injective.comp bigEndian_injective).eq_iff

/-- **The characters of a name:** letters and digits of ASCII, and three signs. -/
theorem mem_hashName {s : String} {c : Char} (h : c ∈ (hashName s).toList) :
    c.isAlphanum ∨ c = '_' ∨ c = '=' ∨ c = '-' := by
  have halphabet : Base64.alphabet.all (fun d => d.isAlphanum || d == '_' || d == '-') := by decide
  rw [hashName, String.toList_ofList] at h
  rcases Base64.mem_of_mem_encode h with h | rfl
  · have hc := List.all_eq_true.1 halphabet c h
    simp only [Bool.or_eq_true, beq_iff_eq] at hc
    tauto
  · exact Or.inr (Or.inr (Or.inl rfl))

/-! ### The files of the build directory -/

/-- **The kinds of files** in a build directory. -/
inductive Artifact.Kind where
  | archive
  | symbols
  | object
  | importcfg
  | commands
  | assemblyHeader
  | executable
deriving DecidableEq

/-- The last character of the names of a kind. -/
def Artifact.Kind.mark : Kind → Char
  | archive => 'a'
  | symbols => '='
  | object => 'o'
  | importcfg => 'g'
  | commands => 'n'
  | assemblyHeader => 'h'
  | executable => 't'

namespace Layout

open Artifact (Kind)

variable {l : Layout} {kind kind' : Kind} {p p' : Path}

/-- **The paths of the files of a kind.** The name of an assembly file is one name, without a
slash. -/
inductive Names (l : Layout) : Kind → Path → Prop
  | archive (importPath : String) : Names l .archive (l.archive importPath)
  | symbols (importPath : String) : Names l .symbols (l.symbols importPath)
  | object (importPath file : String) (isName : '/' ∉ file.toList) :
      Names l .object (l.object importPath file)
  | importcfg : Names l .importcfg l.importcfg
  | commands : Names l .commands l.commands
  | assemblyHeader : Names l .assemblyHeader l.assemblyHeader
  | executable : Names l .executable l.executable

/-- **The name of a file** is a plain one, and its last character tells its kind. -/
theorem Names.exists_name (h : l.Names kind p) :
    ∃ name, p = l.base.child name ∧ IsPlain name ∧ name.toList.getLast? = some kind.mark := by
  have hartifact (a : Artifact) (ha : ∀ s file, a = .object s file → '/' ∉ file.toList) :
      ∃ name, a.path l = l.base.child name ∧ IsPlain name ∧
        name.toList.getLast? = some a.mark :=
    ⟨a.name, rfl, a.isPlain_name ha, a.getLast?_name⟩
  cases h with
  | archive s => exact hartifact (.archive s) (by simp)
  | symbols s => exact hartifact (.symbols s) (by simp)
  | object s file hfile => exact hartifact (.object s file) (by simpa using hfile)
  | executable => exact hartifact .executable (by simp)
  | importcfg => exact ⟨"importcfg", rfl, by decide, by decide⟩
  | commands => exact ⟨"commands.json", rfl, by decide, by decide⟩
  | assemblyHeader => exact ⟨"go_asm.h", rfl, by decide, by decide⟩

/-- **Paths of two kinds** never lead to one file. -/
theorem Names.kind_eq (h : l.Names kind p) (h' : l.Names kind' p') (hsame : p.same p' = true) :
    kind = kind' := by
  obtain ⟨name, rfl, hplain, hlast⟩ := h.exists_name
  obtain ⟨name', rfl, hplain', hlast'⟩ := h'.exists_name
  obtain rfl := (Path.same_child_iff hplain hplain').1 hsame
  have hmark : kind.mark = kind'.mark := Option.some.inj (hlast.symm.trans hlast')
  cases kind <;> cases kind' <;> first | rfl | cases hmark

end Layout

/-- **Two paths of artifacts** are one text exactly if they lead to one file. -/
theorem Artifact.path_tfae (l : Layout) {a b : Artifact} (ha : IsPlain a.name)
    (hb : IsPlain b.name) :
    [a.path l = b.path l, (a.path l).same (b.path l) = true, a.Alike b].TFAE := by
  tfae_have 1 → 2 := fun h => by rw [h]; exact BEq.rfl
  tfae_have 2 ↔ 3 := same_path_iff l ha hb
  tfae_have 3 → 1 := fun h => congrArg l.base.child (name_eq_iff.2 h)
  tfae_finish

namespace Layout

/-- **No two files of a build directory clash.** The hash of an import path has twenty-four
characters: letters, digits, and the signs of the encoding. The archives of two import paths are one
file, and so are the symbols, exactly if the hashes of the import paths are equal; the objects of
two assembly files exactly if besides the assembly files have one name. It does not matter
whether paths are compared as they are written or step by step. Files of different kinds never
have one path. -/
theorem names_apart (l : Layout) (p q f g : String) (hf : '/' ∉ f.toList) (hg : '/' ∉ g.toList) :
    ((hashName p).length = 24 ∧
      ∀ c ∈ (hashName p).toList, c.isAlphanum ∨ c = '_' ∨ c = '=' ∨ c = '-') ∧
    [l.archive p = l.archive q, (l.archive p).same (l.archive q) = true,
      Fnv.hash (Text.bytes p) = Fnv.hash (Text.bytes q)].TFAE ∧
    [l.symbols p = l.symbols q, (l.symbols p).same (l.symbols q) = true,
      Fnv.hash (Text.bytes p) = Fnv.hash (Text.bytes q)].TFAE ∧
    [l.object p f = l.object q g, (l.object p f).same (l.object q g) = true,
      Fnv.hash (Text.bytes p) = Fnv.hash (Text.bytes q) ∧ f = g].TFAE ∧
    ∀ (kind kind' : Artifact.Kind) (a b : Path), l.Names kind a → l.Names kind' b →
      kind ≠ kind' → a.same b = false := by
  have hplain (a : Artifact) (ha : ∀ s file, a = .object s file → '/' ∉ file.toList) :
      IsPlain a.name := a.isPlain_name ha
  refine ⟨⟨?_, fun c => mem_hashName⟩, ?_, ?_, ?_, ?_⟩
  · rw [← String.length_toList, length_hashName]
  · have harchives := Artifact.path_tfae l (hplain (.archive p) (by simp))
      (hplain (.archive q) (by simp))
    simpa only [Artifact.path_archive, Artifact.Alike, hashName_eq_iff] using harchives
  · have hsymbols := Artifact.path_tfae l (hplain (.symbols p) (by simp))
      (hplain (.symbols q) (by simp))
    simpa only [Artifact.path_symbols, Artifact.Alike, hashName_eq_iff] using hsymbols
  · have hobjects := Artifact.path_tfae l (hplain (.object p f) (by simpa using hf))
      (hplain (.object q g) (by simpa using hg))
    simpa only [Artifact.path_object, Artifact.Alike, hashName_eq_iff] using hobjects
  · intro kind kind' a b ha hb hne
    exact Bool.eq_false_iff.2 fun hsame => hne (ha.kind_eq hb hsame)

/-- Two assembly files of one package, and two import paths of which one has a slash more. -/
theorem names_apart_slash :
    let l : Layout := ⟨⟨"/b"⟩⟩
    '/' ∉ "add.s".toList ∧ '/' ∉ "sub.s".toList ∧ (hashName "fmt").length = 24 ∧
      (l.archive "fmt").same (l.archive "fmt/") = false ∧
      (l.object "fmt" "add.s").same (l.object "fmt" "sub.s") = false ∧
      (l.object "fmt" "add.s").same l.executable = false := by
  intro l
  have hslash : '/' ∉ "add.s".toList ∧ '/' ∉ "sub.s".toList := by decide
  obtain ⟨-, harchives, -, -, -⟩ := names_apart l "fmt" "fmt/" "add.s" "sub.s" hslash.1 hslash.2
  obtain ⟨⟨hlength, -⟩, -, -, hobjects, hkinds⟩ :=
    names_apart l "fmt" "fmt" "add.s" "sub.s" hslash.1 hslash.2
  refine ⟨hslash.1, hslash.2, hlength, ?_, ?_, ?_⟩
  · have hhash : Fnv.hash (Text.bytes "fmt") ≠ Fnv.hash (Text.bytes "fmt/") := by decide
    exact Bool.eq_false_iff.2 fun hsame => hhash ((harchives.out 1 2).1 hsame)
  · refine Bool.eq_false_iff.2 fun hsame => ?_
    obtain ⟨-, hfiles⟩ := (hobjects.out 1 2).1 hsame
    exact absurd hfiles (by decide)
  · exact hkinds _ _ _ _ (.object "fmt" "add.s" hslash.1) .executable (by decide)

end Layout

end GoPlanner
