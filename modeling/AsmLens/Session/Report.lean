import AsmLens.FilePath
import AsmLens.Session.Editor

namespace AsmLens

structure ToolCheck where
  name : String
  command : String
  path : Option String
  version : Option String
  deriving DecidableEq, Repr

def ToolCheck.available (t : ToolCheck) : Bool := t.path.isSome

structure Report where
  interpreter : String
  platform : String
  editor : String
  tools : List ToolCheck
  issues : List String
  notes : List String
  deriving DecidableEq, Repr

namespace Report

def missing (r : Report) : List String := (r.tools.filter (!·.available)).map (·.name)

def isOptional (t : ToolCheck) : Bool := t.name == "encoder" || t.name == "demangler"

def issue (t : ToolCheck) : String := "Missing dependency: " ++ t.name ++ " (" ++ t.command ++ ")"

def optionalNote (t : ToolCheck) : String :=
  "Optional tool missing: " ++ t.name ++ " (" ++ t.command ++ ")"

def issuesOf (tools : List ToolCheck) : List String :=
  (tools.filter fun t => !t.available && !isOptional t).map issue

def notesOf (tools : List ToolCheck) : List String :=
  (tools.filter fun t => !t.available && isOptional t).map optionalNote

def fallbackNote (editor : String) : String :=
  "Neither VISUAL nor EDITOR is set; falling back to " ++ editor ++ "."

def textOrNull : Option String → Value
  | none => .null
  | some s => .text s

def toolValue (t : ToolCheck) : Value :=
  .table [("name", .text t.name), ("command", .text t.command), ("available", .bool t.available),
    ("version", textOrNull t.version), ("path", textOrNull (t.path.map tidyPath)), ("details", .null)]

def toValue (r : Report) : Value :=
  .table [("python_version", .text r.interpreter), ("platform", .text r.platform),
    ("editor", .text r.editor), ("tools", .array (r.tools.map toolValue)),
    ("issues", .array (r.issues.map .text)), ("notes", .array (r.notes.map .text))]

end Report

namespace Session

def probeVersion (path : String) : Act (Option String) := do
  record (.probe path)
  match (Assoc.get? (← get).host.versions path).getD (.printed []) with
  | .failed => return none
  | .printed bs =>
    return (Text.firstLine? (String.ofList (Text.decodeLossy bs))).map Text.trim

def find? (s : Session) (command : String) : Option String :=
  Editor.nonempty? (Assoc.get? s.host.programs command)

def checkTool (name command : String) (asksVersion : Bool) : Act ToolCheck := do
  match (← get).find? command with
  | none => return { name, command, path := none, version := none }
  | some path =>
    let version ← if asksVersion then probeVersion path else pure none
    return { name, command, path := some path, version }

def program : List String → Act String
  | [] => throw .noProgram
  | p :: _ => return p

def interpreterVersion (s : String) : Except Fault String :=
  match Text.trimLeft s.toList with
  | [] => .error .noVersion
  | cs => .ok (String.ofList (cs.takeWhile fun c => !Text.isBlank c))

def checkEditor (editor : String) : Act (List ToolCheck) := do
  match ← lift ((Text.splitWords editor).mapError .badWords) with
  | [] => return []
  | word :: _ => return [← checkTool "editor" word false]

def inspect (t : Tools) : Act Report := do
  let environ := (← get).environ
  let editor := Editor.choose environ t.defaultEditor
  let interpreter ← lift (interpreterVersion (← get).host.interpreter)
  let compiler ← checkTool "compiler" t.compiler true
  let encoder ← checkTool "encoder" (← program t.encoder) true
  let demangler ← checkTool "demangler" (← program t.demangler) true
  let tools := [compiler, encoder, demangler] ++ (← checkEditor editor)
  let unset := Editor.choose environ "" = ""
  return {
    interpreter
    platform := (← get).host.platform
    editor
    tools
    issues := Report.issuesOf tools
    notes := Report.notesOf tools ++
      (if unset then [Report.fallbackNote t.defaultEditor] else []) }

end Session

end AsmLens
