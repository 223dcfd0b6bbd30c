import AsmLens.Options.Resolve
import AsmLens.Pipeline.Failure
import AsmLens.Text.Markup
import AsmLens.Text.Words

namespace AsmLens

inductive Subject where
  | options
  | tools
  | output
  | settings
  deriving DecidableEq, Repr

inductive Fault where
  | invalid (subject : Subject) (problems : List Problem)
  | standardNotText
  | noOptions
  | noProgram
  | noVersion
  | badWords (e : Text.SplitError)
  | badMarkup (e : Markup.Trouble)
  | badVariable
  | badPath
  | notText
  | noSuchFile
  | isFolder
  | notFolder
  | nameTooLong
  | badDocument
  | tooManyDigits
  | inputClosed
  | interrupted
  | failed (f : Failure)
  | unreadableTemplate (path : String)
  | declined
  deriving DecidableEq, Repr

namespace Fault

def ofRefusal : Options.Refusal → Fault
  | .invalid problems => .invalid .options problems
  | .standardNotText => .standardNotText

def message? : Fault → Option String
  | .badWords e => some e.message
  | .failed f => some f.message
  | .unreadableTemplate path => some ("Unable to read template file: " ++ path)
  | .declined => some "Compilation failed and retry was declined"
  | _ => none

end Fault

end AsmLens
