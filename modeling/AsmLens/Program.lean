import AsmLens.Command.Compile
import AsmLens.Command.Environment

namespace AsmLens.Program

/-- A few words in place of the text that is made from all options. -/
def helpText : String :=
  "Usage: asmcc [compile|env] [OPTIONS]\n\nShow the assembly that comes of a snippet.\n"

def perform (i : CommandLine.Invocation) (replies : Replies) : Act Nat :=
  match i with
  | .compile r => Command.compile r replies
  | .environment r => Command.environment r
  | .help => do
    Session.print helpText
    return 0

def run (arguments : List String) (replies : Replies) (s : Session) :
    Except CommandLine.Misuse (EStateM.Result Fault Session Nat) := do
  return (perform (← CommandLine.Invocation.ofArguments s.files arguments) replies).run s

def performInspection (r : Option CommandLine.EnvironmentRequest) : Act Nat :=
  match r with
  | some r => Command.inspection r
  | none => do
    Session.print helpText
    return 0

def runInspection (arguments : List String) (s : Session) :
    Except CommandLine.Misuse (EStateM.Result Fault Session Nat) := do
  return (performInspection (← CommandLine.EnvironmentRequest.ofArguments arguments)).run s

end AsmLens.Program
