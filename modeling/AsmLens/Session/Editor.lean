import AsmLens.Session.Basic

namespace AsmLens

namespace Editor

def builtin : String := "/usr/bin/nano"

def nonempty? (s : Option String) : Option String := s.filter (· != "")

def choose (environ : Environ) (fallback : String) : String :=
  ((nonempty? (Assoc.get? environ "VISUAL")).or (nonempty? (Assoc.get? environ "EDITOR"))).getD fallback

def command (editor path : String) : Except Text.SplitError (List String) :=
  (Text.splitWords editor).map (· ++ [path])

end Editor

namespace Session

def nextEdit : Act Edit := do
  let s ← get
  set { s with edits := s.edits.tail }
  return s.edits.headD .idle

/-- Opens a file and waits. The status of the editor means nothing, and an editor that does not start
leaves the file as it was. As for a stage, words with a null character in them are set aside. -/
def edit (path editor : String) : Act Unit := do
  let command ← lift ((Editor.command editor path).mapError .badWords)
  note { level := .debug, message := "Launching editor: " ++ Text.joinWords command }
  record (.edit command)
  match ← nextEdit with
  | .refused reason =>
    note { level := .error,
           message := "Unable to start editor " ++ command.headD "" ++ ": " ++ reason }
  | .ended status content =>
    match content with
    | some bs =>
      let files ← lift ((← get).files.write path bs)
      modify fun s => { s with files }
    | none => pure ()
    if status ≠ 0 then
      note { level := .debug, message := "Editor exited with status " ++ toString status }

def editWith (path : String) (editor : Option String) : Act Unit := do
  edit path ((Editor.nonempty? editor).getD (Editor.choose (← get).environ Editor.builtin))

end Session

end AsmLens
