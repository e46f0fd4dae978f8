import Verdict.Evaluation
import Verdict.Pattern.Library
import Verdict.Report
import Verdict.Text.Quoted

/-!
# The command line

The first argument is the source text of a condition, each further one binds a name to a value:
`name=value`. The name ends at the first `=`, so that a value may hold more of them; it must not be
empty. The bindings are checked before the source is read.

The exit code is 2 for wrong arguments, 1 for a condition that cannot be read or evaluated, and 0
for one that can, whatever its truth, which is then printed.
-/

namespace Verdict.CommandLine

/-! ## 1. Arguments -/

/-- How the program is to be used. -/
def usage : String := "usage: bool_expr '<expression>' [name=value ...]"

/-- The name and the value that an argument binds, if it does. -/
def binding? (argument : String) : Option (String × String) :=
  let cs := argument.toList
  let name := cs.takeWhile (· != '=')
  match cs.dropWhile (· != '=') with
  | [] => none
  | _ :: value => if name.isEmpty then none else some (String.ofList name, String.ofList value)

/-- The bindings of arguments, or the first argument that binds nothing. -/
def bindings : List String → Except String (List (String × String))
  | [] => .ok []
  | argument :: arguments =>
    match binding? argument with
    | none => .error argument
    | some b => (bindings arguments).map (b :: ·)

/-! ## 2. Outcomes -/

/-- What the program prints, and the code it ends with. -/
structure Outcome where
  code : UInt32
  output : String
  errors : String

/-- The outcome for arguments that are not as they should be. -/
def misuse (message : String) : Outcome := ⟨2, "", message ++ usage ++ "\n"⟩

/-- **The outcome of a command line.** -/
def run [RegexLibrary] : List String → Outcome
  | [] => misuse ""
  | source :: arguments =>
    match bindings arguments with
    | .error argument =>
      let shown := Text.quoted argument
      misuse s!"invalid variable binding {shown}, expected name=value\n"
    | .ok bound =>
      match evaluateText (Lookup.ofBindings bound) source with
      | .ok truth => ⟨0, truthWord truth ++ "\n", ""⟩
      | .error fault => ⟨1, "", fault.report source⟩

end Verdict.CommandLine
