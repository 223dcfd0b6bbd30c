import AsmLens.Text.Blank

namespace AsmLens

/-- What a user answers with: the lines that can be read, after which the input has ended, or goes on
with what is no text. -/
structure Replies where
  lines : List String
  readable : Bool
  deriving DecidableEq, Repr

def Replies.closed : Replies := { lines := [], readable := true }

namespace Question

def text (asked : String) (default : Bool) : String :=
  asked ++ (if default then " [Y/n]:" else " [y/N]:")

def answer (default : Bool) (reply : String) : Bool :=
  match Text.trimChars reply.toList with
  | [] => default
  | c :: _ =>
    if c = 'Y' || c = 'y' then true
    else if c = 'N' || c = 'n' then false
    else default

end Question

end AsmLens
