import AsmLens.CommandLine.Compile
import AsmLens.Listing
import AsmLens.Session.Desk
import AsmLens.Session.Settings
import AsmLens.Session.Snippet
import AsmLens.Session.Template
import AsmLens.Text.Escapes

namespace AsmLens.Command

open CommandLine (CompileRequest)

def startText (r : CompileRequest) (l : Language) : Act String := do
  match r.input with
  | some path => Session.lift ((← get).files.readText (tidyPath path))
  | none => Session.selectTemplate l r.template

def deliver (r : CompileRequest) (snippet editor rendered : String) : Act Unit := do
  if r.editResult || r.out.isSome then
    let target := (r.out.map tidyPath).getD snippet
    Session.writeText target rendered
    if r.editResult then Session.editWith target (some editor)
  else Session.print (Text.stripEscapes rendered)

def confirm (readable : Bool) (reply : Option String) : Act Bool := do
  if readable || reply.isSome then Session.confirmAloud reply
  else
    Session.printError (Question.text Desk.question true)
    throw .notText

structure Job where
  tools : Tools
  options : Options
  editor : String
  text : String

def prepare (r : CompileRequest) : Act Job := do
  let settings ← Session.start r.config
  let options ← Session.lift (r.toOptions (← get).host.directory)
  let text ← startText r options.language
  let editor := Editor.choose (← get).environ settings.tools.defaultEditor
  return { tools := settings.tools, options, editor, text }

def desk (j : Job) (system : String) (readable : Bool) : Desk Session :=
  Session.desk j.tools (isDarwin none system) (some j.editor) (confirm readable)

def loop (r : CompileRequest) (j : Job) (replies : Replies) (path : String) :
    Act Outcome := do
  (desk j (← get).host.system replies.readable).run path j.options r.input.isNone
    (replies.lines.map some)

def finish (r : CompileRequest) (j : Job) (path : String) (outcome : Outcome) : Act Nat := do
  match outcome.unwrap with
  | .error _ => return 1
  | .ok bs =>
    let darwin := isDarwin none (← get).host.system
    let source ← Session.readSnippet path
    deliver r path j.editor (Listing.renderBytes j.tools darwin j.options source bs)
    return 0

def work (r : CompileRequest) (j : Job) (replies : Replies) (path : String) :
    Act Nat := do
  finish r j path (← loop r j replies path)

def compile (r : CompileRequest) (replies : Replies) : Act Nat := do
  let j ← prepare r
  Session.withSnippet j.text j.options.language.ending (work r j replies)

end AsmLens.Command
