import AsmLens.Text.Lines

namespace AsmLens

structure FilePath where
  root : String
  parts : List String
  deriving DecidableEq, Repr

namespace FilePath

def rootOf : List Char → String
  | '/' :: '/' :: '/' :: _ => "/"
  | '/' :: '/' :: _ => "//"
  | '/' :: _ => "/"
  | _ => ""

def ofText (s : String) : FilePath :=
  { root := rootOf s.toList
    parts := (Text.splitText '/' s).filter fun p => p != "" && p != "." }

def toText (p : FilePath) : String :=
  if p.root = "" && p.parts.isEmpty then "." else p.root ++ "/".intercalate p.parts

end FilePath

def tidyPath (s : String) : String := (FilePath.ofText s).toText

end AsmLens
