import AsmLens.CommandLine.Compile
import AsmLens.CommandLine.Shortened

namespace AsmLens.CommandLine

inductive EnvironmentKey where
  | config
  | json
  | help
  deriving DecidableEq, Repr

def environmentSwitches : List (Switch EnvironmentKey) :=
  [⟨["--config"], .config, none⟩, ⟨["--json"], .json, some true⟩,
    ⟨["--help", "-h"], .help, some true⟩]

def groupSwitches : List (Switch Unit) := [⟨["--help", "-h"], (), some true⟩]

structure EnvironmentRequest where
  config : Option String
  json : Bool
  deriving DecidableEq, Repr

inductive Invocation where
  | compile (request : CompileRequest)
  | environment (request : EnvironmentRequest)
  | help
  deriving Repr

namespace EnvironmentRequest

def ofParsed (p : Parsed EnvironmentKey) : Except Misuse EnvironmentRequest :=
  match p.extra with
  | a :: _ => .error (.unexpectedArgument a)
  | [] => .ok { config := p.text? .config, json := p.flag .json false }

def ofArguments (arguments : List String) : Except Misuse (Option EnvironmentRequest) := do
  let p ← Shortened.parse environmentSwitches (· == .help) arguments
  if p.flag .help false then return none
  else return some (← ofParsed p)

end EnvironmentRequest

namespace Invocation

def ofCommand (fs : Files) (command : String) (arguments : List String) : Except Misuse Invocation :=
  if command = "compile" then do
    let p ← Switch.parse compileSwitches true arguments
    if p.flag .help false then return .help
    return .compile (← CompileRequest.ofParsed fs p)
  else if command = "env" then do
    let p ← Switch.parse environmentSwitches true arguments
    if p.flag .help false then return .help
    return .environment { (← EnvironmentRequest.ofParsed p) with config := ← p.path? .config }
  else .error (.unknownCommand command)

def ofArguments (fs : Files) (arguments : List String) : Except Misuse Invocation := do
  let p ← Switch.parse groupSwitches false arguments
  if p.flag () false then return .help
  match p.extra with
  | [] => throw .missingCommand
  | command :: rest => ofCommand fs command rest

end Invocation

end AsmLens.CommandLine
