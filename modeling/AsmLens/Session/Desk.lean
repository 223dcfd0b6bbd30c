import AsmLens.Question
import AsmLens.Retry
import AsmLens.Session.Editor

namespace AsmLens.Session

def confirmAloud (reply : Option String) : Act Bool := do
  printError (Question.text Desk.question true)
  match reply with
  | none =>
    printError "\n"
    return false
  | some r => return Question.answer true r

def desk (t : Tools) (darwin : Bool) (editor : Option String)
    (confirm : Option String → Act Bool) : Desk Session :=
  { edit := fun path => editWith path editor
    attempt := fun path o => execute (Pipeline.ofOptions t darwin o path)
    confirm
    note := Session.note }

end AsmLens.Session
