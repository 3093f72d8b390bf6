import GoPlanner.Discovery.Walk
import GoPlanner.Proofs.Telling

/-!
# What Reading a Directory Is Composed Of

A directory is read by steps that end at once, tell something, or fail, put together in sequences
and loops. A property that such steps have and that sequences keep is therefore one of the whole.
One such property is that the result does not depend on what was told before.

## Main definitions

* `Telling.IsClosed`: properties that single steps have and sequences keep.
* `Telling.IsSettled`: computations with one result, whatever was told before.

## Main results

* `Telling.IsClosed.discovery_read`: reading the directory of an arrival has such properties.
* `Discovery.read_unique`: it has one result.
-/

namespace GoPlanner

/-- The package that an import means is never missed because of an import cycle. -/
theorem SourceDirectory.ne_importCycle_of_meantPackage {d : SourceDirectory} {files : List GoFile}
    {e : BuildError} (h : d.meantPackage files = .error e) (cycle : List String) :
    e ≠ .importCycle cycle := by
  rw [meantPackage] at h
  split at h
  · obtain rfl := Except.error.inj h
    simp
  · cases h
  · split at h
    · cases h
    · obtain rfl := Except.error.inj h
      simp

namespace Telling

variable {α β : Type} {x : Telling α} {f : α → Telling β}

/-! ### Sequences -/

/-- **The result of a sequence** is a fault of its first part, or the result of the second one. -/
theorem Ends.of_bind {r : Except BuildError β} (h : Ends (x >>= f) r) :
    (∃ e, Ends x (.error e) ∧ r = .error e) ∨ ∃ a, Ends x (.ok a) ∧ Ends (f a) r := by
  cases r with
  | error e => exact h.bind_error.imp (fun hx => ⟨e, hx, rfl⟩) id
  | ok b => exact .inr h.bind

/-- A first part that has one result is passed over. -/
theorem Answers.ends_of_bind {a : α} {r : Except BuildError β} (hx : x.Answers (.ok a))
    (h : Ends (x >>= f) r) : Ends (f a) r := by
  rcases h.of_bind with ⟨e, he, -⟩ | ⟨b, hb, h⟩
  · cases hx.eq_of_ends he
  · obtain rfl := Except.ok.inj (hx.eq_of_ends hb)
    exact h

/-! ### Properties of computations -/

/-- **A property that single steps have and sequences keep.** Steps that report an import cycle need
not have it. -/
structure IsClosed (P : ∀ {α : Type}, Telling α → Prop) : Prop where
  /-- Steps that end at once. -/
  pure {α : Type} (a : α) : P (pure a : Telling α)
  /-- Steps that fail. -/
  throw {α : Type} {e : BuildError} (h : ∀ cycle, e ≠ .importCycle cycle) :
    P (throw e : Telling α)
  /-- Steps that tell something. -/
  tell (n : Notice) : P (tell n)
  /-- Sequences. -/
  bind {α β : Type} {x : Telling α} {f : α → Telling β} (hx : P x) (hf : ∀ a, P (f a)) :
    P (x >>= f)

namespace IsClosed

variable {P : ∀ {α : Type}, Telling α → Prop} (h : IsClosed P)

include h

theorem orRefused (p : Path) (x : Except Fault α) : P (orRefused p x) := by
  cases x with
  | error fault => exact h.throw (by simp)
  | ok a => exact h.pure a

theorem foldlM {f : β → α → Telling β} (hf : ∀ b x, P (f b x)) (xs : List α) (b : β) :
    P (xs.foldlM f b) := by
  induction xs generalizing b with
  | nil => exact h.pure b
  | cons x xs ih =>
      rw [List.foldlM_cons]
      exact h.bind (hf b x) ih

theorem filterM {f : α → Telling Bool} (hf : ∀ x, P (f x)) (xs : List α) : P (xs.filterM f) := by
  have haux (xs before : List α) : P (xs.filterAuxM f before) := by
    induction xs generalizing before with
    | nil => exact h.pure _
    | cons x xs ih => exact h.bind (hf x) fun b => ih _
  exact h.bind (haux xs []) fun _ => h.pure _

/-! ### Reading a directory -/

variable {d : SourceDirectory} {t : FileTree} {target : Target} {name src : String}

theorem source : P (d.source t name) :=
  h.orRefused _ _

theorem goFile : P (d.goFile t name) := by
  rw [SourceDirectory.goFile]
  refine h.bind h.source fun src => ?_
  split
  · exact h.throw (by simp)
  · exact h.pure _

theorem mentionUnsupported : P (d.mentionUnsupported name) := by
  rw [SourceDirectory.mentionUnsupported]
  split <;> exact h.tell _

theorem look : P (d.look t) := by
  rw [SourceDirectory.look]
  split
  · exact h.bind h.goFile fun _ => h.pure _
  · have hnames : P (d.fileNames t) := h.bind (h.orRefused _ _) fun _ => h.pure _
    refine h.bind hnames fun names => h.foldlM (fun seen name => ?_) names _
    rw [SourceDirectory.lookAt]
    split
    · exact h.bind h.goFile fun _ => h.pure _
    · exact h.pure _
    · exact h.bind h.mentionUnsupported fun _ => h.pure _
    · exact h.pure _

theorem admits : P (d.admits target name src) := by
  rw [SourceDirectory.admits]
  split
  · exact h.pure _
  · split
    · exact h.throw (by simp)
    · refine h.bind ?_ fun _ => h.pure _
      rw [tellIf]
      split
      · exact h.tell _
      · exact h.pure _

theorem directory_read : P (d.read t target) := by
  rw [SourceDirectory.read]
  refine h.bind h.look fun found => ?_
  dsimp only
  split
  · rename_i hmeant
    exact h.throw (SourceDirectory.ne_importCycle_of_meantPackage hmeant)
  · refine h.bind (h.filterM (fun file => h.admits) _) fun goFiles => ?_
    refine h.bind (h.filterM (fun name => ?_) _) fun _ => h.pure _
    exact h.bind h.source fun src => h.admits

/-- **Reading the directory of an arrival** has all such properties. -/
theorem discovery_read {c : Discovery} {a : Arrival} {isRoot : Bool} : P (c.read a isRoot) := by
  rw [Discovery.read]
  refine h.bind h.directory_read fun contents => h.bind (h.tell _) fun _ => ?_
  dsimp only
  split
  · exact h.bind (h.tell _) fun _ => h.pure _
  · exact h.pure _

end IsClosed

/-! ### Results that do not depend on notices -/

/-- **A computation is settled** if it has one result, whatever was told before. -/
def IsSettled (x : Telling α) : Prop :=
  ∃ r, x.Answers r

theorem IsSettled.unique {x : Telling α} {r r' : Except BuildError α} (h : x.IsSettled)
    (hr : x.Ends r) (hr' : x.Ends r') : r = r' := by
  obtain ⟨s, hs⟩ := h
  exact (hs.eq_of_ends hr).trans (hs.eq_of_ends hr').symm

theorem isClosed_isSettled : IsClosed IsSettled where
  pure a := ⟨_, answers_pure a⟩
  throw _ := ⟨_, answers_throw _⟩
  tell n := ⟨_, answers_tell n⟩
  bind := by
    rintro α β x f ⟨r | a, hr⟩ hf
    · exact ⟨_, hr.bind_error f⟩
    · obtain ⟨s, hs⟩ := hf a
      exact ⟨s, hr.bind hs⟩

end Telling

/-- **Reading a directory has one result.** -/
theorem Discovery.read_unique {c : Discovery} {a : Arrival} {isRoot : Bool}
    {r r' : Except BuildError (Package × List String)} (hr : (c.read a isRoot).Ends r)
    (hr' : (c.read a isRoot).Ends r') : r = r' :=
  Telling.isClosed_isSettled.discovery_read.unique hr hr'

end GoPlanner
