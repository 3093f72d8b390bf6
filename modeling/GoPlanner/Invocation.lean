import GoPlanner.Path

/-!
# Tool Invocations

A plan is a list of invocations of the tools of the Go distribution. An invocation is
recorded as a list of arguments that starts with the name of the tool.

## Main definitions

* `Tool`: the tools that a plan uses.
* `Invocation`: a tool with its arguments.
* `Invocation.argv`, `Invocation.display`: the recorded and the printed form.
* `Invocation.flagValue?`, `Invocation.hasFlag`: looking at arguments.
-/

namespace GoPlanner

/-- **Tools** of the Go distribution. -/
inductive Tool where
  | asm
  | compile
  | pack
  | link
deriving DecidableEq, Inhabited

namespace Tool

/-- All tools. -/
def all : List Tool :=
  [asm, compile, pack, link]

/-- The name of a tool. -/
def name : Tool → String
  | asm => "asm"
  | compile => "compile"
  | pack => "pack"
  | link => "link"

end Tool

/-- **An invocation of a tool.** -/
structure Invocation where
  /-- The tool. -/
  tool : Tool
  /-- Its arguments. -/
  args : List String := []
deriving DecidableEq, Inhabited

namespace Invocation

/-- The invocation with more arguments. -/
def adding (i : Invocation) (more : List String) : Invocation :=
  { i with args := i.args ++ more }

/-- The invocation with paths as further arguments. -/
def addingPaths (i : Invocation) (paths : List Path) : Invocation :=
  i.adding (paths.map (·.text))

/-- **The recorded form:** the name of the tool and its arguments. -/
def argv (i : Invocation) : List String :=
  i.tool.name :: i.args

/-- **The printed form.** -/
def display (i : Invocation) : String :=
  " ".intercalate i.argv

/-- The argument behind the first occurrence of a flag. -/
def flagValue? (i : Invocation) (flag : String) : Option String :=
  ((i.args.dropWhile (fun a => a != flag)).drop 1).head?

/-- Whether a flag is among the arguments. -/
def hasFlag (i : Invocation) (flag : String) : Bool :=
  i.args.contains flag

end Invocation

end GoPlanner
