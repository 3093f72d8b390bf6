import GoPlanner.Proofs.Layout.Apart

/-!
# Hashes Taken Back

The prime is odd, so it has an inverse modulo `2 ^ 128`, and exclusive or undoes itself. A step of
the hash can therefore be taken back if the byte is known, and so can all steps of a byte string:
the hash of a text tells the hash of each of its beginnings, once the rest is known. Equal bytes
behind two texts neither bring their hashes together nor part them. A step from a known hash tells
its byte, so texts that differ in one byte have different hashes, and different names.

## Main definitions

* `Fnv.inverse`: the inverse of the prime.
* `Fnv.unstep`: one step taken back.
* `Fnv.OneApart`: byte strings of one length that differ in one byte.

## Main results

* `Fnv.unstep_step`, `Fnv.leftInverse_foldl_step`: a step is taken back, and so are all steps of a
  byte string, from its end.
* `Fnv.step_injective`, `Fnv.foldl_step_injective`: a step tells the byte, if the hash before it is
  known, and the other way round.
* `Fnv.hash_append_iff`: the cancellation law.
* `Fnv.hash_substituted_iff`: a byte in the midst of a text shows in its hash.
* `Layout.archives_cancel`: what both mean for hashes and for archives.
-/

namespace GoPlanner

namespace Fnv

variable {a b : List UInt8}

/-! ### One step -/

/-- **The inverse** of the prime modulo `2 ^ 128`. -/
def inverse : BitVec 128 :=
  0xb1041ad2562ff2ff2ff2ff2ff2ff2ff3#128

theorem prime_mul_inverse : prime * inverse = 1#128 := by decide

theorem mul_prime_mul_inverse (h : BitVec 128) : h * prime * inverse = h := by
  rw [BitVec.mul_assoc, prime_mul_inverse, BitVec.mul_one]

/-- **One step taken back.** Multiplication by the inverse, then exclusive or with the byte. -/
def unstep (h : BitVec 128) (byte : UInt8) : BitVec 128 :=
  (h * inverse) ^^^ byte.toBitVec.setWidth 128

theorem unstep_step (h : BitVec 128) (byte : UInt8) : unstep (step h byte) byte = h := by
  rw [unstep, step, mul_prime_mul_inverse, BitVec.xor_assoc, BitVec.xor_self, BitVec.xor_zero]

/-- **Different bytes** take a hash to different hashes. -/
theorem step_injective (h : BitVec 128) : Function.Injective (step h) := by
  intro x y hstep
  have hmul : h ^^^ x.toBitVec.setWidth 128 = h ^^^ y.toBitVec.setWidth 128 := by
    rw [← mul_prime_mul_inverse (h ^^^ _), ← step, hstep, step, mul_prime_mul_inverse]
  have hwide := congrArg (BitVec.setWidth 8) ((BitVec.xor_right_inj h).1 hmul)
  rw [BitVec.setWidth_setWidth_of_le _ (by decide), BitVec.setWidth_setWidth_of_le _ (by decide),
    BitVec.setWidth_eq, BitVec.setWidth_eq] at hwide
  exact UInt8.eq_of_toBitVec_eq hwide

/-! ### All steps of a byte string -/

/-- **The steps of a byte string** are taken back one by one, the last one first. -/
theorem leftInverse_foldl_step (bytes : List UInt8) :
    Function.LeftInverse (fun h => bytes.foldr (fun byte h => unstep h byte) h)
      (fun h => bytes.foldl step h) := by
  intro h
  dsimp only
  induction bytes generalizing h with
  | nil => rfl
  | cons byte bytes ih => rw [List.foldl_cons, List.foldr_cons, ih, unstep_step]

/-- **Different hashes stay different** whatever bytes follow. -/
theorem foldl_step_injective (bytes : List UInt8) :
    Function.Injective (fun h => bytes.foldl step h) :=
  (leftInverse_foldl_step bytes).injective

theorem hash_append (a c : List UInt8) : hash (a ++ c) = c.foldl step (hash a) :=
  List.foldl_append

/-- **The cancellation law:** the same bytes behind two byte strings neither bring their hashes
together nor part them. -/
theorem hash_append_iff (a b c : List UInt8) : hash (a ++ c) = hash (b ++ c) ↔ hash a = hash b := by
  rw [hash_append, hash_append]
  exact (foldl_step_injective c).eq_iff

/-- **A byte in the midst of a text** shows in its hash. -/
theorem hash_substituted_iff (u v : List UInt8) (x y : UInt8) :
    hash (u ++ x :: v) = hash (u ++ y :: v) ↔ x = y := by
  have hsplit (z : UInt8) : u ++ z :: v = (u ++ [z]) ++ v := by simp
  rw [hsplit, hsplit, hash_append_iff, hash_append, hash_append]
  exact (step_injective (hash u)).eq_iff

/-! ### Texts that differ in one byte -/

/-- **Byte strings that differ in one byte:** they have one length, and there is exactly one place
where they hold different bytes. -/
def OneApart (a b : List UInt8) : Prop :=
  a.length = b.length ∧ (a.zip b).countP (fun r => r.1 != r.2) = 1

instance (a b : List UInt8) : Decidable (OneApart a b) :=
  inferInstanceAs (Decidable (_ ∧ _))

/-- Byte strings of one length that differ nowhere are equal. -/
theorem eq_of_countP_zip (hlength : a.length = b.length)
    (hcount : (a.zip b).countP (fun r => r.1 != r.2) = 0) : a = b := by
  induction a generalizing b with
  | nil => exact (List.eq_nil_of_length_eq_zero hlength.symm).symm
  | cons x a ih =>
      obtain _ | ⟨y, b⟩ := b
      · cases hlength
      · rw [List.zip_cons_cons, List.countP_eq_zero, List.forall_mem_cons] at hcount
        obtain ⟨hhead, htail⟩ := hcount
        rw [ih (Nat.succ.inj hlength) (List.countP_eq_zero.2 htail)]
        simpa using hhead

/-- **Where they differ,** one byte stands for another, and all before and behind it is equal. -/
theorem OneApart.exists_split (h : OneApart a b) :
    ∃ u x y v, x ≠ y ∧ a = u ++ x :: v ∧ b = u ++ y :: v := by
  obtain ⟨hlength, hcount⟩ := h
  induction a generalizing b with
  | nil => simp at hcount
  | cons x a ih =>
      obtain _ | ⟨y, b⟩ := b
      · simp at hcount
      · rw [List.zip_cons_cons, List.countP_cons] at hcount
        by_cases hxy : x = y
        · obtain ⟨u, x', y', v, hne, rfl, rfl⟩ :=
            ih (Nat.succ.inj hlength) (by simpa [hxy] using hcount)
          exact ⟨x :: u, x', y', v, hne, rfl, by rw [hxy]; rfl⟩
        · have htail := eq_of_countP_zip (Nat.succ.inj hlength) (by simpa [hxy] using hcount)
          exact ⟨[], x, y, a, hxy, rfl, by rw [htail]; rfl⟩

/-- **Byte strings that differ in one byte** have different hashes. -/
theorem OneApart.hash_ne (h : OneApart a b) : hash a ≠ hash b := by
  obtain ⟨u, x, y, v, hne, rfl, rfl⟩ := h.exists_split
  exact mt (hash_substituted_iff u v x y).1 hne

end Fnv

namespace Layout

open Fnv (OneApart)

/-- **Hashes cancel, and so do archives.** The same bytes behind two byte strings neither bring
their hashes together nor part them. So byte strings of one length that differ in exactly one byte
have different hashes, and import paths of such bytes have different names and different archives in
every build directory, whether paths are compared as they are written or step by step. -/
theorem archives_cancel :
    (∀ a b c : List UInt8, Fnv.hash (a ++ c) = Fnv.hash (b ++ c) ↔ Fnv.hash a = Fnv.hash b) ∧
      (∀ a b : List UInt8, OneApart a b → Fnv.hash a ≠ Fnv.hash b) ∧
      ∀ (l : Layout) (p q : String), OneApart (Text.bytes p) (Text.bytes q) →
        hashName p ≠ hashName q ∧ l.archive p ≠ l.archive q ∧
          (l.archive p).same (l.archive q) = false := by
  refine ⟨Fnv.hash_append_iff, fun a b h => h.hash_ne, fun l p q h => ?_⟩
  have hname : hashName p ≠ hashName q := mt hashName_eq_iff.1 h.hash_ne
  have hplain (s : String) : IsPlain (Artifact.archive s).name :=
    Artifact.isPlain_name (by simp)
  have hpaths := Artifact.path_tfae l (hplain p) (hplain q)
  exact ⟨hname, mt (hpaths.out 0 2).1 hname, Bool.eq_false_iff.2 (mt (hpaths.out 1 2).1 hname)⟩

/-- Two import paths of one length: their last bytes differ. -/
theorem archives_cancel_versions :
    OneApart (Text.bytes "example.com/lib/v2") (Text.bytes "example.com/lib/v3") ∧
      (Layout.mk ⟨"/b"⟩).archive "example.com/lib/v2" ≠
        (Layout.mk ⟨"/b"⟩).archive "example.com/lib/v3" ∧
      Fnv.hash (Text.bytes "example.com/lib/v2" ++ Text.bytes "/sub") ≠
        Fnv.hash (Text.bytes "example.com/lib/v3" ++ Text.bytes "/sub") := by
  have hapart : OneApart (Text.bytes "example.com/lib/v2") (Text.bytes "example.com/lib/v3") := by
    decide
  obtain ⟨hcancel, hbytes, harchives⟩ := archives_cancel
  refine ⟨hapart, (harchives ⟨⟨"/b"⟩⟩ _ _ hapart).2.1, ?_⟩
  exact mt (hcancel _ _ _).1 (hbytes _ _ hapart)

end Layout

end GoPlanner
