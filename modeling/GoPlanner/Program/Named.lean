import GoPlanner.Program.Calculation
import GoPlanner.Program.Columns
import GoPlanner.Program.Condition
import GoPlanner.Program.Edit.Run
import GoPlanner.Program.Listing
import GoPlanner.Program.Order
import GoPlanner.Program.Printing
import GoPlanner.Program.Search

/-!
# Programs by Name

## Main definitions

* `Program.ofName?`: the program of a name.
-/

namespace GoPlanner

namespace Program

/-- Does nothing, with a status. -/
def still (status : Nat) : Program := fun _ =>
  finish status

/-- A program for which two hyphens in front of its arguments do not count. -/
def withoutDashes (p : Program) : Program := fun arguments =>
  p (if arguments.head? = some "--" then arguments.tail else arguments)

/-- Whether a text is a length of time. -/
def isDuration (text : String) : Bool :=
  let cs := text.toList
  let digits := match cs.getLast? with
    | some c => if ['s', 'm', 'h', 'd'].contains c then cs.dropLast else cs
    | none => cs
  text = "infinity" || digits.any Char.isDigit && digits.all (fun c => c.isDigit || c == '.') &&
    (digits.filter (fun c => c == '.')).length ≤ 1

/-- **Waits,** which takes no time here. -/
def sleep : Program :=
  withOperands { name := "sleep" } (fun g => do
    let wrong := g.operands.filter (fun o => !isDuration o)
    wrong.forM (fun o => complain ("sleep: invalid time interval " ++ quoted o))
    if !wrong.isEmpty then referToHelp 1 "sleep")

/-- The programs and their names. -/
def all : List (String × Program) :=
  [("true", still 0), ("false", still 1), ("sleep", sleep), ("echo", echo),
    ("printf", withoutDashes (printf "printf: ")), ("pwd", pwd), ("printenv", printenv),
    ("test", test "test: " false), ("[", test "[: " true), ("basename", basename),
    ("dirname", dirname), ("seq", seq), ("cat", cat), ("tac", tac), ("rev", rev), ("nl", nl),
    ("head", head), ("tail", tail), ("wc", wc), ("tee", tee), ("sort", sort), ("uniq", uniq),
    ("comm", comm), ("cut", cut), ("paste", paste), ("fold", fold), ("tr", tr), ("sed", sed),
    ("touch", touch), ("mkdir", mkdir), ("rmdir", rmdir), ("rm", rm), ("cp", cp), ("mv", mv),
    ("ln", ln), ("readlink", readlink), ("realpath", realpath), ("chmod", chmod), ("cmp", cmp),
    ("expr", expr), ("ls", ls), ("grep", grep), ("egrep", grepWith ["-E"]), ("fgrep", grepWith ["-F"])]

/-- **The program of a name.** -/
def ofName? (name : String) : Option Program :=
  all.lookup name

end Program

end GoPlanner
