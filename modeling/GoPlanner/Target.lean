import GoPlanner.Path

/-!
# Build Targets

A target says for which system, with which tags, and from which directories a package is
built. Nothing else of the process environment takes part in planning, so two targets
can be planned side by side.

## Main definitions

* `knownSystems`, `unixSystems`, `knownArchitectures`: the platforms of the toolchain.
* `Target`: the description of a target, with the defaults of this host.
* `Target.ofVariables`: the target that the process environment asks for.
-/

namespace GoPlanner

/-- Operating systems that the toolchain knows. -/
def knownSystems : List String :=
  ["aix", "android", "darwin", "dragonfly", "freebsd", "hurd", "illumos", "ios", "js",
    "linux", "nacl", "netbsd", "openbsd", "plan9", "solaris", "wasip1", "windows", "zos"]

/-- Operating systems on which the tag `unix` holds. -/
def unixSystems : List String :=
  ["aix", "android", "darwin", "dragonfly", "freebsd", "hurd", "illumos", "ios", "linux",
    "netbsd", "openbsd", "solaris"]

/-- Architectures that the toolchain knows. -/
def knownArchitectures : List String :=
  ["386", "amd64", "amd64p32", "arm", "armbe", "arm64", "arm64be", "loong64", "mips",
    "mipsle", "mips64", "mips64le", "mips64p32", "mips64p32le", "ppc", "ppc64", "ppc64le",
    "riscv", "riscv64", "s390", "s390x", "sparc", "sparc64", "wasm"]

/-- **A build target.** -/
structure Target where
  /-- The operating system. -/
  goos : String := "linux"
  /-- The architecture. -/
  goarch : String := "amd64"
  /-- The directory of the Go distribution. -/
  goroot : Path := ⟨"/usr/local/go"⟩
  /-- Directories in which packages are searched, in order. -/
  searchPath : List Path := []
  /-- The tags that the user enables. -/
  tags : List String := []
  /-- Whether the tag `cgo` holds. -/
  cgoEnabled : Bool := false
  /-- The highest `N` for which the tag `go1.N` holds. -/
  goMinor : Nat := 22
deriving DecidableEq, Inhabited

namespace Target

/-- The name of the directory of precompiled archives for the target. -/
def platform (t : Target) : String :=
  t.goos ++ "_" ++ t.goarch

/-- The directory of the precompiled archives of the standard library. -/
def archiveDir (t : Target) : Path :=
  (t.goroot.child "pkg").child t.platform

/-- The directory of the sources of the standard library. -/
def sourceDir (t : Target) : Path :=
  t.goroot.child "src"

/-- The directory of the headers that the assembler includes. -/
def includeDir (t : Target) : Path :=
  (t.goroot.child "pkg").child "include"

/-- The value of a variable, if it holds more than blanks. -/
def setVariable? (lookup : String → Option String) (name : String) : Option String :=
  (lookup name).filter (fun v => trimmed v != "")

/-- The search path of an environment: the entries of `GOPATH` between colons, or the
directory `go` of the home directory. -/
def searchPathOf (lookup : String → Option String) : List Path :=
  match setVariable? lookup "GOPATH" with
  | some list => (pieces ':' list).map Path.mk
  | none => ((setVariable? lookup "HOME").map (fun home => (Path.mk home).child "go")).toList

/-- **The target of an environment.** Variables that are unset or blank leave the defaults
as they are. -/
def ofVariables (lookup : String → Option String) : Target :=
  let default : Target := {}
  { default with
    goos := (setVariable? lookup "GOOS").getD default.goos
    goarch := (setVariable? lookup "GOARCH").getD default.goarch
    goroot := ((setVariable? lookup "GOROOT").map Path.mk).getD default.goroot
    searchPath := searchPathOf lookup
    cgoEnabled := ((setVariable? lookup "CGO_ENABLED").map (fun v => trimmed v == "1")).getD
      default.cgoEnabled }

end Target

end GoPlanner
