import AsmLens.Config.Settings
import AsmLens.FilePath
import AsmLens.Session.Basic

namespace AsmLens.Session

def variableFile? (s : Session) : Option Bytes :=
  if Variables.isOff s.environ then none else s.host.variableFile

def loadVariables : Act Unit := do
  match (← get).variableFile? with
  | none => pure ()
  | some bs =>
    match Text.decode? bs with
    | none => throw .notText
    | some cs =>
      let statements := Variables.parse cs
      for message in statements.filterMap Variables.warning? do
        display { level := .warning, message }
      match Variables.load? (← get).environ statements with
      | some environ => modify fun s => { s with environ }
      | none => throw .badVariable

def overlay (path : Option String) : Act (Option Bytes) := do
  let s ← get
  match path with
  | none => return s.host.userDocument
  | some path =>
    let path := tidyPath path
    if ← lift (s.files.isThere path) then return some (← lift (s.files.read path))
    else return none

def layer : Option Bytes → Act (List Entries)
  | none => return []
  | some bs => return [← lift (Settings.readDocument bs)]

def loadSettings (path : Option String) : Act Settings := do
  loadVariables
  let base ← layer (← get).host.defaultDocument
  let upper ← layer (← overlay path)
  lift (Settings.ofLayers (Assoc.get? (← get).environ "ASMCC_COMPILER") (base ++ upper))

def start (path : Option String) : Act Settings := do
  let settings ← loadSettings path
  configureLog settings.verbosity
  return settings

end AsmLens.Session
