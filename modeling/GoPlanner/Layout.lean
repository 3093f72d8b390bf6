import GoPlanner.Hash.Base64
import GoPlanner.Hash.Fnv
import GoPlanner.Path
import GoPlanner.Text.Utf8

/-!
# The Build Directory

Everything that a build writes lies directly in the build directory. The files of a
package are named by a hash of its import path, so they keep their names from run to run
and an archive of an earlier run can be found again.

    importcfg               which archive stands for which import path
    commands.json           the plan
    go_asm.h                the header that the compiler writes for assembly
    <hash>.a                the archive of a package
    symabis_<hash>          the symbols of its assembly files
    <hash>_<file>.o         one assembled file
    a.out                   the executable

## Main definitions

* `hashName`: the hash of an import path as part of a file name.
* `Layout`: a build directory, with the names of its files.
-/

namespace GoPlanner

/-- The bytes of a number of 128 bits, the most significant first. -/
def bigEndian (n : BitVec 128) : List UInt8 :=
  (List.range 16).map (fun i => UInt8.ofNat (n.toNat / Nat.pow 256 (15 - i)))

/-- **The name of an import path** in the build directory: the hash of its bytes, in a
form that can stand in file names. -/
def hashName (importPath : String) : String :=
  String.ofList (Base64.encode (bigEndian (Fnv.hash (Text.bytes importPath))))

/-- **A build directory.** -/
structure Layout where
  /-- The directory itself. -/
  base : Path
deriving DecidableEq, Inhabited

namespace Layout

/-- The archive of a package. -/
def archive (l : Layout) (importPath : String) : Path :=
  l.base.child (hashName importPath ++ ".a")

/-- The symbols of the assembly files of a package. -/
def symbols (l : Layout) (importPath : String) : Path :=
  l.base.child ("symabis_" ++ hashName importPath)

/-- The object of one assembly file. -/
def object (l : Layout) (importPath file : String) : Path :=
  l.base.child (hashName importPath ++ "_" ++ file ++ ".o")

/-- The header that the compiler writes for assembly files. -/
def assemblyHeader (l : Layout) : Path :=
  l.base.child "go_asm.h"

/-- The import configuration. -/
def importcfg (l : Layout) : Path :=
  l.base.child "importcfg"

/-- The recorded plan. -/
def commands (l : Layout) : Path :=
  l.base.child "commands.json"

/-- The executable. -/
def executable (l : Layout) : Path :=
  l.base.child "a.out"

end Layout

end GoPlanner
