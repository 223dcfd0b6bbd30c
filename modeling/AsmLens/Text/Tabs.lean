import AsmLens.Text.Lines

namespace AsmLens.Text

def tabWidth : Nat := 8

def fillToStop (p : List Char) : List Char :=
  p ++ List.replicate (tabWidth - p.length % tabWidth) ' '

def fillPieces (fill : List Char → List Char) : List (List Char) → List Char
  | [] => []
  | [p] => p
  | p :: ps => fill p ++ fillPieces fill ps

def expandLine (fill : List Char → List Char) (s : List Char) : List Char :=
  fillPieces fill (pieces '\t' s)

def expandChars (s : List Char) : List Char :=
  joinPieces ['\n'] ((pieces '\n' s).map (expandLine fillToStop))

def expandTabs (s : String) : String := String.ofList (expandChars s.toList)

end AsmLens.Text
