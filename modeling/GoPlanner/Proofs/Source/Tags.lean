import GoPlanner.Source.Selection
import Mathlib.Data.List.Basic
import Mathlib.Data.List.Induction

/-!
# Which Tags Hold

The tags that hold for a target are those that the user enables, its system and its architecture,
the name of the toolchain, the names that a system implies, and the releases up to that of the
target. The number of a release is read leniently: a plus sign and zeros may stand in front of it,
so a release has more names than the one in which its number is written plainly.

## Main definitions

* `IsNumeral`: the texts that may be read as a number.
* `Target.Enables`: the tags of a target, with the numbers of releases written plainly.
* `Target.IsPaddedRelease`: a release whose number is not written plainly.

## Main results

* `decimal32?_eq_some_iff`: the texts that are read as a number.
* `Target.satisfies_iff`: the tags that hold.
-/

namespace GoPlanner

/-- **A numeral** of 32 bits that can be read: a plus sign and zeros may stand before the number. -/
def IsNumeral (n : ℕ) (text : String) : Prop :=
  n < UInt32.size ∧ ∃ sign zeros, (sign = "" ∨ sign = "+") ∧
    text = sign ++ String.ofList (List.replicate zeros '0') ++ toString n

theorem isNumeral_toString {n : ℕ} (h : n < UInt32.size) : IsNumeral n (toString n) :=
  ⟨h, "", 0, Or.inl rfl, by simp⟩

/-! ### Digits -/

section Digits

variable {c : Char} {digits cs : List Char} {n : ℕ}

theorem exists_eq_digitChar (h : c.isDigit = true) : ∃ d < 10, c = Nat.digitChar d := by
  have hbounds : 48 ≤ c.toNat ∧ c.toNat ≤ 57 := by
    simpa [Char.isDigit, UInt32.le_iff_toNat_le] using h
  refine ⟨c.toNat - 48, by omega, ?_⟩
  have hback : (Nat.digitChar (c.toNat - 48)).toNat = c.toNat := by
    rw [Nat.toNat_digitChar_of_lt_ten (by omega)]
    omega
  exact Char.toNat_inj.1 hback.symm

/-- **Digits are zeros and a plain number,** the one that they stand for. -/
theorem exists_zeros (hdigits : ∀ c ∈ digits, c.isDigit = true) (hne : digits ≠ []) :
    ∃ zeros, digits =
      List.replicate zeros '0' ++ Nat.toDigits 10 (Nat.ofDigitChars 10 digits 0) := by
  induction digits using List.reverseRecOn with
  | nil => exact absurd rfl hne
  | append_singleton digits last ih =>
      obtain ⟨d, hd, rfl⟩ := exists_eq_digitChar (hdigits last (by simp))
      have hlast : Nat.toDigits 10 d = [d.digitChar] := Nat.toDigits_of_lt_base hd
      have hvalue : Nat.ofDigitChars 10 (digits ++ [d.digitChar]) 0 =
          10 * Nat.ofDigitChars 10 digits 0 + d := by
        rw [Nat.ofDigitChars_append, Nat.ofDigitChars_cons_digitChar_of_lt_ten hd,
          Nat.ofDigitChars_nil]
      rw [hvalue]
      by_cases hnil : digits = []
      · exact ⟨0, by simp [hnil, hlast]⟩
      · obtain ⟨zeros, hzeros⟩ := ih (fun c hc => hdigits c (by simp [hc])) hnil
        by_cases hzero : Nat.ofDigitChars 10 digits 0 = 0
        · -- All digits before the last one are zeros.
          refine ⟨zeros + 1, ?_⟩
          rw [hzero] at hzeros
          rw [hzero, Nat.mul_zero, Nat.zero_add, hlast, List.replicate_succ', hzeros]
          simp
        · refine ⟨zeros, ?_⟩
          rw [← Nat.toDigits_append_toDigits (by decide) (Nat.pos_of_ne_zero hzero) hd, hlast,
            ← List.append_assoc, ← hzeros]

/-- The value of zeros and a number is the number. -/
theorem ofDigitChars_zeros (zeros n : ℕ) :
    Nat.ofDigitChars 10 (List.replicate zeros '0' ++ Nat.toDigits 10 n) 0 = n := by
  rw [Nat.ofDigitChars_append, Nat.ofDigitChars_replicate_zero, Nat.mul_zero,
    Nat.ofDigitChars_ten_toDigits]

theorem isDigit_of_mem_zeros {zeros n : ℕ}
    (h : c ∈ List.replicate zeros '0' ++ Nat.toDigits 10 n) : c.isDigit = true := by
  rcases List.mem_append.1 h with h | h
  · rw [List.eq_of_mem_replicate h]
    rfl
  · exact Nat.isDigit_of_mem_toDigits (by decide) (by decide) h

theorem foldl_digits (digits : List Char) :
    digits.foldl (fun n c => n * 10 + (c.toNat - 48)) 0 = Nat.ofDigitChars 10 digits 0 := by
  simp [Nat.ofDigitChars_eq_foldl, Nat.mul_comm]

/-- **Digits are read** behind an optional plus sign. -/
theorem decimal32?_append {sign : List Char} (hsign : sign = [] ∨ sign = ['+'])
    (hplus : sign = [] → digits.head? ≠ some '+') :
    decimal32? (sign ++ digits) = some n ↔
      digits ≠ [] ∧ (∀ c ∈ digits, c.isDigit = true) ∧ Nat.ofDigitChars 10 digits 0 = n ∧
        n < UInt32.size := by
  have hread : decimal32? (sign ++ digits) =
      if digits.isEmpty || !digits.all Char.isDigit then none
      else if Nat.ofDigitChars 10 digits 0 < 4294967296 then
        some (Nat.ofDigitChars 10 digits 0)
      else none := by
    rw [← foldl_digits]
    rcases hsign with rfl | rfl
    · unfold decimal32?
      split
      · rename_i hcons
        rw [List.nil_append] at hcons
        simp [hcons] at hplus
      · rfl
    · rfl
  rw [hread]
  constructor
  · intro h
    split at h
    · cases h
    · rename_i hdigits
      split at h
      · rename_i hsmall
        obtain rfl := Option.some.inj h
        exact ⟨by simp_all, by simp_all, rfl, hsmall⟩
      · cases h
  · rintro ⟨hne, hdigits, rfl, hsmall⟩
    rw [if_neg (by simpa [hne] using hdigits)]
    exact if_pos hsmall

/-- A text is an optional plus sign and what follows it. -/
theorem exists_sign (cs : List Char) :
    ∃ sign digits, (sign = [] ∨ sign = ['+']) ∧ (sign = [] → digits.head? ≠ some '+') ∧
      cs = sign ++ digits := by
  cases cs with
  | nil => exact ⟨[], [], Or.inl rfl, by simp, rfl⟩
  | cons c cs =>
      by_cases hc : c = '+'
      · exact ⟨['+'], cs, Or.inr rfl, by simp, by rw [hc]; rfl⟩
      · exact ⟨[], c :: cs, Or.inl rfl, by simp [hc], rfl⟩

/-- **What is read as a number** is a numeral of it. -/
theorem decimal32?_eq_some_iff : decimal32? cs = some n ↔ IsNumeral n (String.ofList cs) := by
  constructor
  · intro h
    obtain ⟨sign, digits, hsign, hplus, rfl⟩ := exists_sign cs
    obtain ⟨hne, hdigits, rfl, hsmall⟩ := (decimal32?_append hsign hplus).1 h
    obtain ⟨zeros, hzeros⟩ := exists_zeros hdigits hne
    refine ⟨hsmall, String.ofList sign, zeros, ?_, ?_⟩
    · exact hsign.imp (fun h => by rw [h]) (fun h => by rw [h])
    · rw [Nat.toString_eq_ofList_toDigits, String.append_assoc, ← String.ofList_append, ← hzeros,
        ← String.ofList_append]
  · rintro ⟨hsmall, sign, zeros, hsign, htext⟩
    have hcs : cs = sign.toList ++ (List.replicate zeros '0' ++ Nat.toDigits 10 n) := by
      simpa [← String.toList_inj] using htext
    have hhead : (List.replicate zeros '0' ++ Nat.toDigits 10 n).head? ≠ some '+' := fun h =>
      absurd (isDigit_of_mem_zeros (List.mem_of_head? h)) (by decide)
    rw [hcs, decimal32?_append (hsign.imp (fun h => by rw [h]; rfl) (fun h => by rw [h]; rfl))
      fun _ => hhead]
    exact ⟨by simp, fun c hc => isDigit_of_mem_zeros hc, ofDigitChars_zeros zeros n, hsmall⟩

end Digits

namespace Target

variable {t : Target} {name : String}

/-- **The tags of a target.** The number of a release is written plainly. -/
inductive Enables (t : Target) : String → Prop
  /-- A tag that the user enables. -/
  | user {tag : String} (hne : tag ≠ "") (h : tag ∈ t.tags) : Enables t tag
  /-- The system. -/
  | system (hne : t.goos ≠ "") : Enables t t.goos
  /-- The architecture. -/
  | architecture (hne : t.goarch ≠ "") : Enables t t.goarch
  /-- The toolchain. -/
  | toolchain : Enables t "gc"
  /-- The system that `android` is built on. -/
  | android (h : t.goos = "android") : Enables t "linux"
  /-- The system that `illumos` is built on. -/
  | illumos (h : t.goos = "illumos") : Enables t "solaris"
  /-- The system that `ios` is built on. -/
  | ios (h : t.goos = "ios") : Enables t "darwin"
  /-- The family of the system. -/
  | family (h : t.goos ∈ unixSystems) : Enables t "unix"
  /-- The interface to C, if it is enabled. -/
  | interface (h : t.cgoEnabled = true) : Enables t "cgo"
  /-- A release up to that of the target. -/
  | release {n : ℕ} (hpos : 1 ≤ n) (hle : n ≤ t.goMinor) : Enables t ("go1." ++ toString n)

/-- **A padded release** is one up to that of the target, with a plus sign or zeros in front of
its number. -/
def IsPaddedRelease (t : Target) (name : String) : Prop :=
  ∃ n text, 1 ≤ n ∧ n ≤ t.goMinor ∧ IsNumeral n text ∧ text ≠ toString n ∧ name = "go1." ++ text

/-- **Releases** that are read. -/
theorem isReleaseTag_iff : t.isReleaseTag name = true ↔
    ∃ n text, 1 ≤ n ∧ n ≤ t.goMinor ∧ IsNumeral n text ∧ name = "go1." ++ text := by
  have hprefix (text : String) : "go1.".toList.isPrefixOf? ("go1." ++ text).toList =
      some text.toList := by
    rw [List.isPrefixOf?_eq_some_iff_append_eq, String.toList_append]
  constructor
  · intro h
    rw [isReleaseTag] at h
    split at h
    · rename_i n hn
      obtain ⟨cs, hcs, hnumber⟩ := Option.bind_eq_some_iff.1 hn
      obtain ⟨hpos, hle⟩ : 1 ≤ n ∧ n ≤ t.goMinor := by simpa using h
      refine ⟨n, String.ofList cs, hpos, hle, decimal32?_eq_some_iff.1 hnumber, ?_⟩
      rw [← String.toList_inj, ← List.isPrefixOf?_eq_some_iff_append_eq.1 hcs, String.toList_append]
      exact congrArg _ String.toList_ofList.symm
    · cases h
  · rintro ⟨n, text, hpos, hle, hnumeral, rfl⟩
    have hnumber : decimal32? text.toList = some n :=
      decimal32?_eq_some_iff.2 (by rwa [String.ofList_toList])
    rw [isReleaseTag, hprefix, Option.bind_some, hnumber]
    simp [hpos, hle]

/-- **Tags that hold besides** those of the user, the system and the architecture. -/
theorem isImplied_iff : t.isImplied name = true ↔
    name = "gc" ∨ name = "linux" ∧ t.goos = "android" ∨ name = "solaris" ∧ t.goos = "illumos" ∨
      name = "darwin" ∧ t.goos = "ios" ∨ name = "unix" ∧ t.goos ∈ unixSystems ∨
      name = "cgo" ∧ t.cgoEnabled = true ∨ t.isReleaseTag name = true := by
  have hnames : t.isReleaseTag "linux" = false ∧ t.isReleaseTag "solaris" = false ∧
      t.isReleaseTag "darwin" = false ∧ t.isReleaseTag "unix" = false ∧
      t.isReleaseTag "cgo" = false ∧ t.isReleaseTag "gc" = false :=
    ⟨rfl, rfl, rfl, rfl, rfl, rfl⟩
  obtain ⟨hlinux, hsolaris, hdarwin, hunix, hcgo, hgc⟩ := hnames
  rw [isImplied]
  repeat' split
  all_goals simp_all

/-- **The tags of a target,** one after the other. -/
theorem enables_iff : t.Enables name ↔ name ≠ "" ∧
    (name ∈ t.tags ∨ name = t.goos ∨ name = t.goarch ∨ name = "gc" ∨
      name = "linux" ∧ t.goos = "android" ∨ name = "solaris" ∧ t.goos = "illumos" ∨
      name = "darwin" ∧ t.goos = "ios" ∨ name = "unix" ∧ t.goos ∈ unixSystems ∨
      name = "cgo" ∧ t.cgoEnabled = true ∨
      ∃ n, 1 ≤ n ∧ n ≤ t.goMinor ∧ name = "go1." ++ toString n) := by
  constructor
  · intro h
    cases h with
    | user hne h => simp [hne, h]
    | system hne => simp [hne]
    | architecture hne => simp [hne]
    | toolchain => simp
    | android h => simp [h]
    | illumos h => simp [h]
    | ios h => simp [h]
    | family h => simp [h]
    | interface h => simp [h]
    | release hpos hle =>
      refine ⟨by simp, ?_⟩
      iterate 9 right
      exact ⟨_, hpos, hle, rfl⟩
  · rintro ⟨hne, h | rfl | rfl | rfl | ⟨rfl, h⟩ | ⟨rfl, h⟩ | ⟨rfl, h⟩ | ⟨rfl, h⟩ | ⟨rfl, h⟩ |
      ⟨n, hpos, hle, rfl⟩⟩
    · exact .user hne h
    · exact .system hne
    · exact .architecture hne
    · exact .toolchain
    · exact .android h
    · exact .illumos h
    · exact .ios h
    · exact .family h
    · exact .interface h
    · exact .release hpos hle

/-- **The tags that hold** are those of the target and its padded releases. -/
theorem satisfies_iff (hminor : t.goMinor < UInt32.size) :
    t.satisfies name = true ↔ t.Enables name ∨ t.IsPaddedRelease name := by
  have hrelease : t.isReleaseTag name = true ↔
      (∃ n, 1 ≤ n ∧ n ≤ t.goMinor ∧ name = "go1." ++ toString n) ∨ t.IsPaddedRelease name := by
    rw [isReleaseTag_iff]
    constructor
    · rintro ⟨n, text, hpos, hle, hnumeral, rfl⟩
      by_cases hplain : text = toString n
      · exact Or.inl ⟨n, hpos, hle, by rw [hplain]⟩
      · exact Or.inr ⟨n, text, hpos, hle, hnumeral, hplain, rfl⟩
    · rintro (⟨n, hpos, hle, rfl⟩ | ⟨n, text, hpos, hle, hnumeral, -, rfl⟩)
      · exact ⟨n, _, hpos, hle, isNumeral_toString (Nat.lt_of_le_of_lt hle hminor), rfl⟩
      · exact ⟨n, text, hpos, hle, hnumeral, rfl⟩
  have hne : t.IsPaddedRelease name → name ≠ "" := by
    rintro ⟨n, text, -, -, -, -, rfl⟩
    simp
  rw [satisfies, enables_iff, ← and_iff_right_of_imp hne, ← and_or_left]
  simp only [Bool.and_eq_true, bne_iff_ne, Bool.or_eq_true, List.contains_iff_mem, beq_iff_eq,
    isImplied_iff, hrelease, or_assoc]

/-- A release with a sign and a zero in front of its number holds. -/
theorem satisfies_iff_signed :
    ({} : Target).goMinor < UInt32.size ∧ (({} : Target).Enables "go1.+021" ∨
      ({} : Target).IsPaddedRelease "go1.+021") :=
  ⟨by decide, (satisfies_iff (by decide)).1 (by decide)⟩

/-- **A padded release holds,** though it is none of the tags of the target. -/
theorem exists_satisfies_not_enables :
    ∃ t : Target, ∃ name,
      t.goMinor < UInt32.size ∧ t.satisfies name = true ∧ ¬ t.Enables name := by
  have hplain : ∀ n ≤ 22, "go1.021" ≠ "go1." ++ toString n := by decide
  refine ⟨{}, "go1.021", by decide, by decide, ?_⟩
  rw [enables_iff]
  rintro ⟨-, h⟩
  obtain ⟨n, -, hle, hname⟩ : ∃ n, 1 ≤ n ∧ n ≤ 22 ∧ "go1.021" = "go1." ++ toString n := by
    simpa using h
  exact hplain n hle hname

end Target

end GoPlanner
