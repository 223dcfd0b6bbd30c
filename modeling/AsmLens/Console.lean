import AsmLens.Text.Markup
import AsmLens.Text.Wrap

namespace AsmLens

/-- What pages are printed on: how much a line holds, which the terminal or its environment says, and
what the names in texts stand for. -/
structure Console where
  width : Nat
  names : Markup.Names

namespace Console

def page (c : Console) (lines : List (List Char)) : String :=
  if c.width = 0 then ""
  else String.ofList (lines.flatMap fun l => Text.cropBeyond c.width l ++ ['\n'])

def wrapped (c : Console) (s : String) : String := if c.width = 0 then "" else Text.wrap c.width s

def marked (c : Console) (s : String) : Except Markup.Trouble String :=
  (c.names.read s).map c.wrapped

end Console

end AsmLens
