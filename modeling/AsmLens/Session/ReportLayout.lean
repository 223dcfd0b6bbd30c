import AsmLens.Console
import AsmLens.Json.Printer
import AsmLens.Session.Report
import AsmLens.Text.Table

namespace AsmLens.Report

def toolVersion (t : ToolCheck) : String := t.version.getD ""

def unlines (ls : List String) : String := String.join (ls.map (· ++ "\n"))

def plainTool (t : ToolCheck) : String :=
  " - " ++ t.name ++ " [" ++ t.command ++ "]: " ++ (if t.available then "ok" else "missing") ++ " " ++
    toolVersion t

def plainLines (r : Report) : List String :=
  ["Python: " ++ r.interpreter ++ " (" ++ r.platform ++ ")", "Editor: " ++ r.editor] ++
    r.tools.map plainTool ++ r.notes.map ("note: " ++ ·) ++ r.issues.map ("ISSUE: " ++ ·)

def plainText (r : Report) : String := unlines r.plainLines

def headings : List String := ["Tool", "Command", "Status", "Details"]

/-- A page on which no column can show a character leaves the texts of its cells unread. -/
def readsCells (c : Console) : Bool := 2 < Text.Table.freeRoom c.width headings.length

def cell (c : Console) (s : String) : Except Markup.Trouble (List Char) :=
  if readsCells c then (c.names.read s).map Text.shown else .ok []

def toolRow (t : ToolCheck) (command details : List Char) : List (List Char) :=
  [t.name.toList, command, (if t.available then "OK" else "Missing").toList, details]

def toolTable (c : Console) (tools : List ToolCheck) : Except Markup.Trouble String := do
  let commands ← tools.mapM fun t => cell c t.command
  let details ← tools.mapM fun t => cell c (toolVersion t)
  return c.page (Text.Table.draw c.width "Tooling".toList (headings.map String.toList)
    (List.zipWith (fun t texts => toolRow t texts.1 texts.2) tools (commands.zip details)))

def bullet (s : String) : String := "  • " ++ s

def bullets (c : Console) (title : String) (items : List String) :
    List (Except Markup.Trouble String) :=
  if items.isEmpty then []
  else .ok (c.wrapped title) :: items.map fun i => c.marked (bullet i)

def summary (r : Report) : String :=
  "Python " ++ r.interpreter ++ " on " ++ r.platform ++ "; editor: " ++ r.editor

/-- What comes on the page, in turn. Colours are left out, those of the constant texts with their
tags. -/
def pageParts (c : Console) (r : Report) : List (Except Markup.Trouble String) :=
  [.ok (c.page [Text.Table.ruleLine c.width "Environment Report".toList]), c.marked r.summary,
    toolTable c r.tools] ++ bullets c "Blocking issues detected:" r.issues ++
    bullets c "Notes:" r.notes

def pageData (c : Console) (r : Report) : String :=
  c.wrapped (Json.toText (Json.Layout.pretty false) r.toValue)

def plainData (r : Report) : String := Json.toText (Json.Layout.pretty true) r.toValue ++ "\n"

end AsmLens.Report
