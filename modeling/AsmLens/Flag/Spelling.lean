import AsmLens.Text.Blank
import AsmLens.Text.Front

namespace AsmLens.Flag

def stripWarning (s : List Char) : List Char :=
  match Text.drop? ['-', 'W'] s with
  | some rest => rest
  | none => Text.dropFront ['W'] s

def warningStem (s : String) : List Char := stripWarning (Text.trimChars s.toList)

def toWarning (s : String) : String :=
  if Text.trimChars s.toList = [] then "" else String.ofList ('-' :: 'W' :: warningStem s)

def stripInclude (s : List Char) : List Char := Text.dropFront ['-', 'I'] s

def includeStem (s : String) : List Char := stripInclude (Text.trimChars s.toList)

def toInclude (s : String) : String :=
  if Text.trimChars s.toList = [] then "" else String.ofList ('-' :: 'I' :: includeStem s)

end AsmLens.Flag
