import GoPlanner.Program.Named

/-!
# The System Around a Shell

While programs run, the directories and programs of the system stand beside the files of
the user. A program of the system is an executable file whose content tells which one it
is, so it can also be linked, copied and renamed.

## Main definitions

* `Shell.imageOf`, `Shell.imageName?`: the contents of programs.
* `Shell.withSystem`, `Shell.withoutSystem`: the files with and without those of the system.
-/

namespace GoPlanner

namespace Shell

/-! ### Programs as files -/

/-- The names of shells. -/
def shellNames : List String :=
  ["sh", "dash"]

/-- The names of programs that start others. -/
def starterNames : List String :=
  ["env", "xargs", "nohup", "nice"]

/-- The beginning of the contents of programs. -/
def imageStart : String :=
  "\x7fELF"

/-- **The content of a program.** -/
def imageOf (name : String) : Content :=
  .text (imageStart ++ name)

/-- **The program of a content.** -/
def imageName? (octets : String) : Option String :=
  if startsWith imageStart octets then
    some (String.ofList (octets.toList.drop imageStart.length))
  else none

/-! ### Entries -/

/-- The directories of the system. -/
def systemDirectories : List Place :=
  [["boot"], ["dev"], ["etc"], ["home"], ["media"], ["mnt"], ["opt"], ["proc"], ["root"],
    ["run"], ["srv"], ["sys"], ["tmp"], ["usr"], ["usr", "bin"], ["usr", "lib"],
    ["usr", "local"], ["usr", "local", "bin"], ["usr", "local", "sbin"], ["usr", "sbin"],
    ["usr", "share"], ["var"], ["var", "tmp"]]

/-- Everything that the system holds. -/
def systemEntries : List (Place × Entry) :=
  systemDirectories.map (fun place => (place, ⟨.directory, 0⟩)) ++
    ["bin", "lib", "sbin"].map (fun name => ([name], ⟨.link ⟨"usr/" ++ name⟩, 0⟩)) ++
    (shellNames ++ starterNames ++ Program.all.map (·.1)).map (fun name =>
      (["usr", "bin", name], ⟨.file (imageOf name) true, 0⟩))

/-- The entries of the system that others do not stand in the place of. -/
def missingEntries (t : FileTree) : List (Place × Entry) :=
  systemEntries.filter (fun e => (t.entry? e.1).isNone)

/-- **The files with those of the system.** -/
def withSystem (t : FileTree) : FileTree :=
  { t with entries := t.entries ++ missingEntries t }

/-- **The files without those of the system.** What was there before is given, so that it
stays. -/
def withoutSystem (before t : FileTree) : FileTree :=
  let added := missingEntries before
  { t with entries := t.entries.filter (fun e => added.lookup e.1 != some e.2) }

end Shell

end GoPlanner
