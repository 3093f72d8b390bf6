import GoPlanner.Proofs.Graph.Bare

/-!
# Graphs That Agree

Two discoveries that meet the same packages in another order number them in another way. Their
graphs are compared by directory: packages resemble each other when they have the same name and
the same files, and graphs agree when the packages in each directory do and import each other in
the same way.

## Main definitions

* `Package.Resembles`: packages with the same name and the same files.
* `PackageGraph.Mirrors`: graphs whose packages resemble those of another one.
* `PackageGraph.Agrees`: graphs with the same packages and imports by directory.

## Main results

* `PackageGraph.Mirrors.modify`, `PackageGraph.Mirrors.extended`: what keeps a graph a mirror.
* `PackageGraph.Mirrors.resembles`: the packages in one directory.
* `PackageGraph.agrees_of_bare`: archives do not matter.
-/

namespace GoPlanner

/-! ### Packages -/

/-- **Packages that resemble each other** have the same name and the same files. -/
structure Package.Resembles (p q : Package) : Prop where
  /-- The name is the same. -/
  name : q.name = p.name
  /-- The Go files have the same names. -/
  goFiles : q.goFiles = p.goFiles
  /-- So have the assembly files. -/
  asmFiles : q.asmFiles = p.asmFiles
  /-- The Go files lie in the same directory. -/
  goPaths : q.goPaths = p.goPaths

namespace Package.Resembles

variable {p q r : Package}

theorem symm (h : p.Resembles q) : q.Resembles p :=
  ⟨h.name.symm, h.goFiles.symm, h.asmFiles.symm, h.goPaths.symm⟩

theorem trans (h : p.Resembles q) (h' : q.Resembles r) : p.Resembles r :=
  ⟨h'.name.trans h.name, h'.goFiles.trans h.goFiles, h'.asmFiles.trans h.asmFiles,
    h'.goPaths.trans h.goPaths⟩

end Package.Resembles

/-- A package resembles what it evolves to. -/
theorem Package.Evolves.resembles {p q : Package} (h : p.Evolves q) : p.Resembles q where
  name := by rw [h.fields]
  goFiles := h.goFiles
  asmFiles := by rw [h.fields]
  goPaths := by rw [Package.goPaths, Package.goPaths, h.directory, h.goFiles]

/-- The name of a package with its Go files and its assembly files. -/
def Package.files (p : Package) : String × List String × List String :=
  (p.name, p.goFiles, p.asmFiles)

theorem Package.files_bare (p : Package) : p.bare.files = p.files :=
  rfl

namespace PackageGraph

variable {g found : PackageGraph} {id k : PackageId} {p q : Package}

/-! ### Graphs that mirror another one -/

/-- **A graph mirrors another one** when its packages resemble those that the other one has in
their directories. -/
structure Mirrors (g found : PackageGraph) : Prop where
  /-- The standard library is there in the same form. -/
  precompiled : g.precompiled = found.precompiled
  /-- There is a package that resembles it for each one. -/
  package : ∀ id p, g.package? id = some p → ∃ k q, found.package? k = some q ∧
    q.directory.same p.directory = true ∧ q.Resembles p

/-- Packages of one directory lie in the same directory. -/
theorem same_of_byDirectory? {directory : Path} (hj : g.byDirectory? directory = some id)
    (hp : g.package? id = some p) (hk : found.byDirectory? directory = some k)
    (hq : found.package? k = some q) : p.directory.same q.directory = true := by
  obtain ⟨⟨p', hp', hsame⟩, -⟩ := byDirectory?_eq_some.1 hj
  obtain ⟨⟨q', hq', hsame'⟩, -⟩ := byDirectory?_eq_some.1 hk
  obtain rfl := Option.some.inj (hp.symm.trans hp')
  obtain rfl := Option.some.inj (hq.symm.trans hq')
  exact Path.same_trans hsame (by rwa [Path.same_comm])

theorem Mirrors.modify (hg : g.Mirrors found) {f : Package → Package}
    (hf : ∀ p : Package, p.Evolves (f p)) : (g.modify id f).Mirrors found where
  precompiled := hg.precompiled
  package := by
    intro k p hp
    rw [package?_modify] at hp
    obtain ⟨r, hr, rfl⟩ := Option.map_eq_some_iff.1 hp
    obtain ⟨j, q, hq, hsame, hresembles⟩ := hg.package k r hr
    have hevolves : r.Evolves (if id = k then f r else r) := by
      split
      · exact hf r
      · exact Package.Evolves.refl r
    exact ⟨j, q, hq, by rwa [hevolves.directory], hresembles.trans hevolves.resembles⟩

theorem Mirrors.extended (hg : g.Mirrors found) (hq : found.package? k = some q)
    (hsame : q.directory.same p.directory = true) (hresembles : q.Resembles p) :
    (g.extended p).Mirrors found where
  precompiled := hg.precompiled
  package := by
    intro j r hr
    rw [package?_extended] at hr
    split at hr
    · obtain rfl := Option.some.inj hr
      exact ⟨k, q, hq, hsame, hresembles⟩
    · exact hg.package j r hr

/-- Packages in one directory resemble each other. -/
theorem Mirrors.resembles (hg : g.Mirrors found) (hfound : found.IsIndexed)
    (hq : found.package? k = some q) (hp : g.package? id = some p)
    (hsame : q.directory.same p.directory = true) : q.Resembles p := by
  obtain ⟨j, r, hr, hsame', hresembles⟩ := hg.package id p hp
  rw [Path.same_comm] at hsame'
  obtain rfl := hfound.eq_of_same hq hr (Path.same_trans hsame hsame')
  obtain rfl := Option.some.inj (hq.symm.trans hr)
  exact hresembles

/-! ### Graphs that agree -/

/-- The package in a directory. -/
def packageIn? (g : PackageGraph) (directory : Path) : Option Package :=
  (g.byDirectory? directory).bind g.package?

/-- **The package in a directory imports** the one in another directory. -/
def ImportsAcross (g : PackageGraph) (directory other : Path) : Prop :=
  ∃ k j, g.byDirectory? directory = some k ∧ g.byDirectory? other = some j ∧ g.Imports k j

/-- **Two graphs agree** when they have packages in the same directories, with the same names and
the same files, which import each other in the same way. -/
structure Agrees (g g' : PackageGraph) : Prop where
  /-- The package in a directory has the same name and the same files, if there is one. -/
  packages : ∀ directory,
    (g'.packageIn? directory).map Package.files = (g.packageIn? directory).map Package.files
  /-- The imports lead to the same directories. -/
  imports : ∀ directory other, g'.ImportsAcross directory other ↔ g.ImportsAcross directory other

theorem Agrees.trans {g₁ g₂ g₃ : PackageGraph} (h : g₁.Agrees g₂) (h' : g₂.Agrees g₃) :
    g₁.Agrees g₃ where
  packages directory := (h'.packages directory).trans (h.packages directory)
  imports directory other := (h'.imports directory other).trans (h.imports directory other)

/-- **Graphs agree** that are equal without their archives. -/
theorem agrees_of_bare {g' : PackageGraph} (h : g'.bare = g.bare) : g.Agrees g' where
  packages directory := by
    rw [packageIn?, packageIn?, byDirectory?_eq_of_bare h]
    cases g.byDirectory? directory with
    | none => rfl
    | some k =>
        have hpackage := congrArg (fun g => (g.package? k).map Package.files) h
        simpa [package?_bare, Package.files_bare, Function.comp_def] using hpackage
  imports directory other := by
    simp only [ImportsAcross, Imports, byDirectory?_eq_of_bare h, importsOf_eq_of_bare h]

end PackageGraph

end GoPlanner
