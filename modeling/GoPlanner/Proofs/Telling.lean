import GoPlanner.Session

/-!
# How Telling Computations End

What a computation of planning tells never decides how it ends, but a computation is a
function of everything that has been told before it. Two readings take the notices away:
`Telling.Ends` says that some run has a result, which is what can be concluded from a
given run, and `Telling.Answers` says that every run has it.

## Main results

* `Telling.Ends.bind`, `Telling.Answers.bind`: sequences of computations.
* `Telling.Ends.foldlM_cons`, `Telling.Ends.filterM`: loops and filters.
* `Telling.bind_congr`, `Telling.foldlM_congr`, `Telling.filterM_congr`: what they depend on.
* `Acting.outcome_bind`, `Acting.outcome_saying`: the same for sessions.
* `Acting.Keeps.bind`: properties of the files that a computation keeps.
-/

namespace GoPlanner

/-! ### Results -/

/-- A result that is there is the result. -/
theorem ok_of_toOption {ε α : Type} {x : Except ε α} {a : α} (h : x.toOption = some a) :
    x = .ok a := by
  cases x with
  | error e => cases h
  | ok b => exact congrArg _ (Option.some.inj h)

/-- A result that passes a test is there. -/
theorem exists_ok_of_any {ε α σ : Type} {x : Except ε α × σ} {test : α → Bool}
    (h : x.1.toOption.any test = true) : ∃ a s, x = (.ok a, s) ∧ test a = true := by
  obtain ⟨result, s⟩ := x
  cases result with
  | error e => cases h
  | ok a => exact ⟨a, s, rfl, h⟩

namespace Telling

variable {α β : Type}

/-- **Some run** of a computation has a result. -/
def Ends (c : Telling α) (r : Except BuildError α) : Prop :=
  ∃ told told', c.run.run told = (r, told')

/-- **Every run** of a computation has a result. -/
def Answers (c : Telling α) (r : Except BuildError α) : Prop :=
  ∀ told, ∃ told', c.run.run told = (r, told')

/-- The outcome is that of the run before which nothing was told. -/
theorem ends_of_outcome {c : Telling α} {r : Except BuildError α} (h : c.outcome.1 = r) :
    c.Ends r :=
  ⟨[], c.outcome.2, by rw [← h]; rfl⟩

/-- An answer is the result of the outcome. -/
theorem Answers.outcome {c : Telling α} {r : Except BuildError α} (h : c.Answers r) :
    c.outcome.1 = r := by
  obtain ⟨told', h⟩ := h []
  exact congrArg Prod.fst h

theorem Answers.ends {c : Telling α} {r : Except BuildError α} (h : c.Answers r) : c.Ends r := by
  obtain ⟨told', h⟩ := h []
  exact ⟨[], told', h⟩

/-- An answer is the only result. -/
theorem Answers.eq_of_ends {c : Telling α} {r r' : Except BuildError α} (h : c.Answers r)
    (h' : c.Ends r') : r' = r := by
  obtain ⟨told, told', hrun⟩ := h'
  obtain ⟨told₁, hrun₁⟩ := h told
  exact congrArg Prod.fst (hrun.symm.trans hrun₁)

/-! ### Single steps -/

@[simp] theorem ends_pure {a : α} {r : Except BuildError α} :
    Ends (pure a) r ↔ r = .ok a := by
  constructor
  · rintro ⟨told, told', h⟩
    exact (congrArg Prod.fst h).symm
  · rintro rfl
    exact ⟨[], [], rfl⟩

@[simp] theorem ends_throw {e : BuildError} {r : Except BuildError α} :
    Ends (throw e) r ↔ r = .error e := by
  constructor
  · rintro ⟨told, told', h⟩
    exact (congrArg Prod.fst h).symm
  · rintro rfl
    exact ⟨[], [], rfl⟩

@[simp] theorem ends_tell {n : Notice} {r : Except BuildError Unit} :
    Ends (tell n) r ↔ r = .ok () := by
  constructor
  · rintro ⟨told, told', h⟩
    exact (congrArg Prod.fst h).symm
  · rintro rfl
    exact ⟨[], [n], rfl⟩

@[simp] theorem ends_orRefused {p : Path} {x : Except Fault α} {a : α} :
    Ends (orRefused p x) (.ok a) ↔ x = .ok a := by
  cases x with
  | error fault => simp [orRefused]
  | ok b => simp [orRefused, eq_comm]

theorem answers_pure (a : α) : Answers (pure a) (.ok a) :=
  fun told => ⟨told, rfl⟩

theorem answers_throw (e : BuildError) : Answers (throw e : Telling α) (.error e) :=
  fun told => ⟨told, rfl⟩

theorem answers_tell (n : Notice) : Answers (tell n) (.ok ()) :=
  fun told => ⟨told ++ [n], rfl⟩

theorem answers_orRefused_ok {p : Path} {x : Except Fault α} {a : α} (h : x = .ok a) :
    Answers (orRefused p x) (.ok a) := by
  rw [h]
  exact answers_pure a

theorem answers_orRefused_error {p : Path} {x : Except Fault α} {fault : Fault}
    (h : x = .error fault) : Answers (orRefused p x) (.error (.refused p fault)) := by
  rw [h]
  exact answers_throw _

/-! ### Sequences -/

/-- The run of a sequence. -/
theorem run_bind (x : Telling α) (f : α → Telling β) (told : List Notice) :
    (x >>= f).run.run told =
      match x.run.run told with
      | (.ok a, told') => (f a).run.run told'
      | (.error e, told') => (.error e, told') := by
  rw [ExceptT.run_bind, StateT.run_bind]
  generalize x.run.run told = r
  rcases r with ⟨_ | a, told'⟩ <;> rfl

/-- **A sequence succeeds** only if both of its parts do. -/
theorem Ends.bind {x : Telling α} {f : α → Telling β} {b : β} (h : Ends (x >>= f) (.ok b)) :
    ∃ a, Ends x (.ok a) ∧ Ends (f a) (.ok b) := by
  obtain ⟨told, told', h⟩ := h
  rw [run_bind] at h
  cases hx : x.run.run told with
  | mk r told₁ =>
      rw [hx] at h
      cases r with
      | error e => cases h
      | ok a => exact ⟨a, ⟨told, told₁, hx⟩, told₁, told', h⟩

/-- **A sequence depends on its second part** only for the results that the first part can have. -/
theorem bind_congr {x : Telling α} {f g : α → Telling β} (h : ∀ a, Ends x (.ok a) → f a = g a) :
    x >>= f = x >>= g := by
  funext told
  change (x >>= f).run.run told = (x >>= g).run.run told
  rw [run_bind, run_bind]
  cases hx : x.run.run told with
  | mk r told₁ =>
      cases r with
      | error e => rfl
      | ok a =>
          dsimp only
          rw [h a ⟨told, told₁, hx⟩]

theorem Answers.bind {x : Telling α} {f : α → Telling β} {a : α} {r : Except BuildError β}
    (hx : Answers x (.ok a)) (hf : Answers (f a) r) : Answers (x >>= f) r := by
  intro told
  obtain ⟨told₁, h₁⟩ := hx told
  obtain ⟨told₂, h₂⟩ := hf told₁
  exact ⟨told₂, by rw [run_bind, h₁]; exact h₂⟩

/-- **A sequence fails** only if one of its parts does. -/
theorem Ends.bind_error {x : Telling α} {f : α → Telling β} {e : BuildError}
    (h : Ends (x >>= f) (.error e)) :
    Ends x (.error e) ∨ ∃ a, Ends x (.ok a) ∧ Ends (f a) (.error e) := by
  obtain ⟨told, told', h⟩ := h
  rw [run_bind] at h
  cases hx : x.run.run told with
  | mk r told₁ =>
      rw [hx] at h
      cases r with
      | error e' =>
          obtain rfl := Except.error.inj (congrArg Prod.fst h)
          exact Or.inl ⟨told, told₁, hx⟩
      | ok a => exact Or.inr ⟨a, ⟨told, told₁, hx⟩, told₁, told', h⟩

/-- A sequence has the answer of its second part, if the first part succeeds. -/
theorem outcome_bind_of_answers {x : Telling α} {f : α → Telling β} {a : α}
    {r : Except BuildError β} (hx : x.outcome.1 = .ok a) (hf : Answers (f a) r) :
    (x >>= f).outcome.1 = r := by
  have hrun : x.run.run [] = (.ok a, x.outcome.2) := by
    rw [← hx]
    rfl
  obtain ⟨told', h⟩ := hf x.outcome.2
  have hbind : (x >>= f).run.run [] = (r, told') := by
    rw [run_bind, hrun]
    exact h
  exact congrArg Prod.fst hbind

/-- The first part of a sequence that succeeds. -/
theorem exists_outcome_of_bind {x : Telling α} {f : α → Telling β} {b : β}
    (h : (x >>= f).outcome.1 = .ok b) : ∃ a, x.outcome.1 = .ok a := by
  cases hx : x.outcome.1 with
  | ok a => exact ⟨a, rfl⟩
  | error e =>
      have hrun : x.run.run [] = (.error e, x.outcome.2) := by
        rw [← hx]
        rfl
      have hbind : (x >>= f).run.run [] = (.error e, x.outcome.2) := by
        rw [run_bind, hrun]
      cases (congrArg Prod.fst hbind).symm.trans h

theorem Answers.bind_error {x : Telling α} (f : α → Telling β) {e : BuildError}
    (hx : Answers x (.error e)) : Answers (x >>= f) (.error e) := by
  intro told
  obtain ⟨told₁, h₁⟩ := hx told
  exact ⟨told₁, by rw [run_bind, h₁]⟩

/-- A notice does not decide how a sequence ends. -/
theorem Ends.of_tell {n : Notice} {f : Unit → Telling β} {b : β}
    (h : Ends (tell n >>= f) (.ok b)) : Ends (f ()) (.ok b) := by
  obtain ⟨_, -, hf⟩ := h.bind
  exact hf

theorem Answers.tell_bind {n : Notice} {f : Unit → Telling β} {r : Except BuildError β}
    (h : Answers (f ()) r) : Answers (tell n >>= f) r :=
  (answers_tell n).bind h

/-! ### Loops -/

/-- **The first step of a loop** that succeeds. -/
theorem Ends.foldlM_cons {f : β → α → Telling β} {x : α} {xs : List α} {b b' : β}
    (h : Ends ((x :: xs).foldlM f b) (.ok b')) :
    ∃ b₁, Ends (f b x) (.ok b₁) ∧ Ends (xs.foldlM f b₁) (.ok b') := by
  rw [List.foldlM_cons] at h
  exact h.bind

/-- **The step of a loop** that fails, behind those that succeed. -/
theorem Ends.foldlM_error {f : β → α → Telling β} {xs : List α} {b : β} {e : BuildError}
    (h : Ends (xs.foldlM f b) (.error e)) :
    ∃ before x after b', xs = before ++ x :: after ∧ Ends (before.foldlM f b) (.ok b') ∧
      Ends (f b' x) (.error e) := by
  obtain ⟨told, told', h⟩ := h
  -- The steps before have to be those of the same run, so the induction is over runs.
  suffices hrun : ∃ before x after b' told₁, xs = before ++ x :: after ∧
      (before.foldlM f b).run.run told = (.ok b', told₁) ∧
      (f b' x).run.run told₁ = (.error e, told') by
    obtain ⟨before, x, after, b', told₁, hxs, hbefore, hx⟩ := hrun
    exact ⟨before, x, after, b', hxs, ⟨told, told₁, hbefore⟩, told₁, told', hx⟩
  induction xs generalizing b told with
  | nil => cases congrArg Prod.fst h
  | cons x xs ih =>
      rw [List.foldlM_cons, run_bind] at h
      cases hx : (f b x).run.run told with
      | mk r told₁ =>
          rw [hx] at h
          cases r with
          | error e' => exact ⟨[], x, xs, b, told, rfl, rfl, hx.trans h⟩
          | ok b₁ =>
              obtain ⟨before, y, after, b', told₂, rfl, hbefore, hy⟩ := ih told₁ h
              refine ⟨x :: before, y, after, b', told₂, rfl, ?_, hy⟩
              rw [List.foldlM_cons, run_bind, hx]
              exact hbefore

/-- **A loop depends on its steps** for the values that it runs through. -/
theorem foldlM_congr {f g : β → α → Telling β} {xs : List α} (h : ∀ b, ∀ x ∈ xs, f b x = g b x)
    (b : β) : xs.foldlM f b = xs.foldlM g b := by
  induction xs generalizing b with
  | nil => rfl
  | cons x xs ih =>
      rw [List.foldlM_cons, List.foldlM_cons, h b x List.mem_cons_self]
      exact bind_congr fun b' _ => ih (fun b y hy => h b y (List.mem_cons_of_mem _ hy)) b'

/-- A loop that only gives notices succeeds. -/
theorem answers_forM_tell (n : α → Notice) (xs : List α) :
    Answers (xs.forM (fun x => tell (n x))) (.ok ()) := by
  induction xs with
  | nil => exact answers_pure ()
  | cons x xs ih => exact ih.tell_bind

/-- **A loop succeeds** if all of its steps do. -/
theorem exists_answers_foldlM {f : β → α → Telling β} {xs : List α}
    (h : ∀ b, ∀ x ∈ xs, ∃ b', (f b x).Answers (.ok b')) (b : β) :
    ∃ b', Answers (xs.foldlM f b) (.ok b') := by
  induction xs generalizing b with
  | nil => exact ⟨b, answers_pure b⟩
  | cons x xs ih =>
      obtain ⟨b₁, hstep⟩ := h b x List.mem_cons_self
      obtain ⟨b', hrest⟩ := ih (fun b y hy => h b y (List.mem_cons_of_mem _ hy)) b₁
      refine ⟨b', ?_⟩
      rw [List.foldlM_cons]
      exact hstep.bind hrest

/-- **A filter succeeds** if all of its tests do. -/
theorem answers_filterM {f : α → Telling Bool} {test : α → Bool} {xs : List α}
    (h : ∀ x ∈ xs, (f x).Answers (.ok (test x))) :
    Answers (xs.filterM f) (.ok (xs.filter test)) := by
  -- As for a filter that succeeds, the induction is over what was kept before.
  have haux (before : List α) :
      Answers (xs.filterAuxM f before) (.ok ((xs.filter test).reverse ++ before)) := by
    induction xs generalizing before with
    | nil => exact answers_pure before
    | cons x xs ih =>
        rw [List.filterAuxM]
        refine (h x List.mem_cons_self).bind ?_
        have hrest := ih (fun y hy => h y (List.mem_cons_of_mem _ hy))
          (cond (test x) (x :: before) before)
        cases htrue : test x <;> simpa [htrue] using hrest
  have hpure := answers_pure (((xs.filter test).reverse ++ []).reverse)
  rw [List.append_nil, List.reverse_reverse] at hpure
  exact (haux []).bind (by simpa using hpure)

/-- **A filter depends on its test** for the values that it runs through. -/
theorem filterM_congr {f g : α → Telling Bool} {xs : List α} (h : ∀ x ∈ xs, f x = g x) :
    xs.filterM f = xs.filterM g := by
  have haux (before : List α) : xs.filterAuxM f before = xs.filterAuxM g before := by
    induction xs generalizing before with
    | nil => rfl
    | cons x xs ih =>
        rw [List.filterAuxM, List.filterAuxM, h x List.mem_cons_self]
        exact bind_congr fun b _ => ih (fun y hy => h y (List.mem_cons_of_mem _ hy)) _
  rw [List.filterM, List.filterM, haux]

/-- The tests of a filter that succeeds have all ended. -/
theorem Ends.exists_of_filterM {f : α → Telling Bool} {xs ys : List α}
    (h : Ends (xs.filterM f) (.ok ys)) {x : α} (hx : x ∈ xs) : ∃ b, Ends (f x) (.ok b) := by
  have haux (xs before ys : List α) (hx : x ∈ xs)
      (h : Ends (xs.filterAuxM f before) (.ok ys)) : ∃ b, Ends (f x) (.ok b) := by
    induction xs generalizing before with
    | nil => cases hx
    | cons y xs ih =>
        rw [List.filterAuxM] at h
        obtain ⟨b, hb, h⟩ := h.bind
        rcases List.mem_cons.1 hx with rfl | hx
        · exact ⟨b, hb⟩
        · exact ih _ hx h
  obtain ⟨zs, hzs, -⟩ := h.bind
  exact haux xs [] zs hx hzs

/-- **A filter that succeeds** keeps the values whose test ends in yes. -/
theorem Ends.filterM {f : α → Telling Bool} {test : α → Bool}
    (htest : ∀ x b, Ends (f x) (.ok b) → b = test x) {xs ys : List α}
    (h : Ends (xs.filterM f) (.ok ys)) : ys = xs.filter test := by
  -- The kept values are collected in reverse, so the induction is over what was kept before.
  have haux (xs before ys : List α) (h : Ends (xs.filterAuxM f before) (.ok ys)) :
      ys = (xs.filter test).reverse ++ before := by
    induction xs generalizing before with
    | nil => simpa [List.filterAuxM] using h
    | cons x xs ih =>
        rw [List.filterAuxM] at h
        obtain ⟨b, hb, h⟩ := h.bind
        rw [ih _ h, htest x b hb]
        cases htrue : test x <;> simp [htrue]
  obtain ⟨zs, hzs, hys⟩ := h.bind
  rw [haux xs [] zs hzs] at hys
  simpa using hys

end Telling

/-! ### Sessions -/

namespace Acting

variable {α β : Type}

/-- **The outcome of a sequence** of changes. -/
theorem outcome_bind (x : Acting α) (f : α → Acting β) (s : Session) :
    (x >>= f).outcome s =
      match x.outcome s with
      | (.ok a, s') => (f a).outcome s'
      | (.error e, s') => (.error e, s') := by
  rw [outcome]
  rw [ExceptT.run_bind, StateT.run_bind]
  change _ = match x.run.run s with
    | (.ok a, s') => Id.run ((f a).run.run s')
    | (.error e, s') => (.error e, s')
  generalize x.run.run s = r
  rcases r with ⟨_ | a, s'⟩ <;> rfl

@[simp] theorem outcome_pure (a : α) (s : Session) :
    outcome (pure a) s = (.ok a, s) :=
  rfl

@[simp] theorem outcome_throw (e : BuildError) (s : Session) :
    outcome (throw e : Acting α) s = (.error e, s) :=
  rfl

@[simp] theorem outcome_files (s : Session) : files.outcome s = (.ok s.tree, s) :=
  rfl

@[simp] theorem outcome_tell (n : Notice) (s : Session) :
    (tell n).outcome s = (.ok (), { s with output := s.output ++ [.notice n] }) :=
  rfl

/-- A computation that only tells changes no file. -/
theorem outcome_saying (c : Telling α) (s : Session) :
    (saying c).outcome s =
      (c.outcome.1, { s with output := s.output ++ c.outcome.2.map .notice }) := by
  rw [saying]
  generalize c.outcome = r
  rcases r with ⟨_ | a, notices⟩ <;> rfl

theorem tree_of_saying {c : Telling α} {r : Except BuildError α} {s s' : Session}
    (h : (saying c).outcome s = (r, s')) : s'.tree = s.tree := by
  rw [outcome_saying] at h
  rw [← (Prod.mk.inj h).2]

/-- A change of files is made, or its fault is reported. -/
theorem outcome_changeFiles (p : Path) (change : FileTree → Except Fault FileTree)
    (s : Session) :
    (changeFiles p change).outcome s =
      match change s.tree with
      | .ok t => (.ok (), { s with tree := t })
      | .error fault => (.error (.refused p fault), s) := by
  rw [changeFiles]
  rw [outcome_bind, outcome_files]
  dsimp only
  cases change s.tree with
  | error fault => rfl
  | ok t => rfl

/-- A change of files that succeeds. -/
theorem outcome_changeFiles_ok {p : Path} {change : FileTree → Except Fault FileTree}
    {s s' : Session} (h : (changeFiles p change).outcome s = (.ok (), s')) :
    change s.tree = .ok s'.tree := by
  rw [outcome_changeFiles] at h
  cases hchange : change s.tree with
  | error fault => simp [hchange] at h
  | ok t =>
      rw [hchange] at h
      obtain rfl := (Prod.mk.inj h).2
      rfl

/-- A change of files that fails changes nothing. -/
theorem outcome_changeFiles_error {p : Path} {change : FileTree → Except Fault FileTree}
    {s s' : Session} {e : BuildError} (h : (changeFiles p change).outcome s = (.error e, s')) :
    s' = s ∧ ∃ fault, change s.tree = .error fault := by
  rw [outcome_changeFiles] at h
  cases hchange : change s.tree with
  | error fault =>
      rw [hchange] at h
      exact ⟨(Prod.mk.inj h).2.symm, fault, rfl⟩
  | ok t => simp [hchange] at h

/-- The outcome of making a directory with its ancestors. -/
theorem outcome_makeDirectories (p : Path) (s : Session) :
    (makeDirectories p).outcome s =
      match s.tree.makeBelow p p.ancestors with
      | .ok t => (.ok (), { s with tree := t })
      | .error (fault, t) => (.error (.refused p fault), { s with tree := t }) := by
  rw [makeDirectories]
  rw [outcome_bind, outcome_files]
  dsimp only
  cases s.tree.makeBelow p p.ancestors with
  | error e => rfl
  | ok t => rfl

theorem outcome_makeDirectories_error {p : Path} {s s' : Session} {e : BuildError}
    (h : (makeDirectories p).outcome s = (.error e, s')) :
    ∃ fault, s.tree.makeBelow p p.ancestors = .error (fault, s'.tree) := by
  rw [outcome_makeDirectories] at h
  cases hmade : s.tree.makeBelow p p.ancestors with
  | error refused =>
      rw [hmade] at h
      obtain rfl := (Prod.mk.inj h).2
      exact ⟨refused.1, rfl⟩
  | ok t => simp [hmade] at h

theorem outcome_makeDirectories_ok {p : Path} {s s' : Session}
    (h : (makeDirectories p).outcome s = (.ok (), s')) :
    s.tree.makeBelow p p.ancestors = .ok s'.tree := by
  rw [outcome_makeDirectories] at h
  cases hmade : s.tree.makeBelow p p.ancestors with
  | error e => simp [hmade] at h
  | ok t =>
      rw [hmade] at h
      obtain rfl := (Prod.mk.inj h).2
      rfl

theorem outcome_bind_of_ok {x : Acting α} {f : α → Acting β} {s s₁ : Session} {a : α}
    (h : x.outcome s = (.ok a, s₁)) : (x >>= f).outcome s = (f a).outcome s₁ := by
  rw [outcome_bind, h]

theorem outcome_bind_of_error {x : Acting α} (f : α → Acting β) {s s₁ : Session}
    {e : BuildError} (h : x.outcome s = (.error e, s₁)) :
    (x >>= f).outcome s = (.error e, s₁) := by
  rw [outcome_bind, h]

/-- A sequence succeeds only if both of its parts do. -/
theorem outcome_bind_ok {x : Acting α} {f : α → Acting β} {s s' : Session} {b : β}
    (h : (x >>= f).outcome s = (.ok b, s')) :
    ∃ a s₁, x.outcome s = (.ok a, s₁) ∧ (f a).outcome s₁ = (.ok b, s') := by
  rw [outcome_bind] at h
  cases hx : x.outcome s with
  | mk r s₁ =>
      rw [hx] at h
      cases r with
      | error e => simp at h
      | ok a => exact ⟨a, s₁, rfl, h⟩

/-- **A sequence fails** only if one of its parts does. -/
theorem outcome_bind_error {x : Acting α} {f : α → Acting β} {s s' : Session} {e : BuildError}
    (h : (x >>= f).outcome s = (.error e, s')) :
    x.outcome s = (.error e, s') ∨
      ∃ a s₁, x.outcome s = (.ok a, s₁) ∧ (f a).outcome s₁ = (.error e, s') := by
  rw [outcome_bind] at h
  cases hx : x.outcome s with
  | mk r s₁ =>
      rw [hx] at h
      cases r with
      | error e' =>
          cases h
          exact Or.inl rfl
      | ok a => exact Or.inr ⟨a, s₁, rfl, h⟩

/-- **A computation keeps a property of the files** if they have it afterwards as well, however
the computation ends. -/
def Keeps (P : FileTree → Prop) (x : Acting α) : Prop :=
  ∀ s, P s.tree → P (x.outcome s).2.tree

section Keeps

variable {P : FileTree → Prop}

theorem Keeps.bind {x : Acting α} {f : α → Acting β} (hx : Keeps P x)
    (hf : ∀ s a s', x.outcome s = (.ok a, s') → Keeps P (f a)) : Keeps P (x >>= f) := by
  intro s hs
  have hkept := hx s hs
  rw [outcome_bind]
  cases houtcome : x.outcome s with
  | mk r s₁ =>
      rw [houtcome] at hkept
      cases r with
      | error e => exact hkept
      | ok a => exact hf s a s₁ houtcome s₁ hkept

theorem keeps_pure (a : α) : Keeps P (pure a : Acting α) :=
  fun _ hs => hs

theorem keeps_tell (n : Notice) : Keeps P (tell n) :=
  fun _ hs => hs

theorem keeps_files : Keeps P files :=
  fun _ hs => hs

/-- What only tells keeps all properties. -/
theorem keeps_saying (c : Telling α) : Keeps P (saying c) := by
  intro s hs
  rw [outcome_saying]
  exact hs

theorem keeps_changeFiles {p : Path} {change : FileTree → Except Fault FileTree}
    (hchange : ∀ t t', P t → change t = .ok t' → P t') : Keeps P (changeFiles p change) := by
  intro s hs
  rw [outcome_changeFiles]
  cases hresult : change s.tree with
  | error fault => exact hs
  | ok t => exact hchange _ _ hs hresult

end Keeps

end Acting

end GoPlanner
