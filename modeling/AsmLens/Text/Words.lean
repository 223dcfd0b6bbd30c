namespace AsmLens.Text

def apostrophe : Char := '\x27'

def isPlain (c : Char) : Bool :=
  c.isAlphanum || c == '_' || c == '@' || c == '%' || c == '+' || c == '=' || c == ':' ||
    c == ',' || c == '.' || c == '/' || c == '-'

def quoteChar (c : Char) : List Char :=
  if c = apostrophe then [apostrophe, '"', apostrophe, '"', apostrophe] else [c]

def quoteChars (w : List Char) : List Char :=
  if !w.isEmpty && w.all isPlain then w
  else apostrophe :: (w.flatMap quoteChar ++ [apostrophe])

def joinChars : List (List Char) → List Char
  | [] => []
  | [w] => quoteChars w
  | w :: ws => quoteChars w ++ ' ' :: joinChars ws

def joinWords (ws : List String) : String := String.ofList (joinChars (ws.map String.toList))

inductive SplitError where
  | unclosedQuote
  | nothingEscaped
  deriving DecidableEq, Repr

def SplitError.message : SplitError → String
  | .unclosedQuote => "No closing quotation"
  | .nothingEscaped => "No escaped character"

def separatesWords (c : Char) : Bool := c == ' ' || c == '\t' || c == '\r' || c == '\n'

inductive Place where
  | between
  | inWord
  | inApostrophes
  | inQuotes
  | escaped
  | escapedInQuotes
  deriving DecidableEq, Repr

def Place.enter (c : Char) : Option Place :=
  if c = '\\' then some .escaped
  else if c = apostrophe then some .inApostrophes
  else if c = '"' then some .inQuotes
  else none

def splitFrom : Place → List Char → List Char → Except SplitError (List (List Char))
  | .between, _, [] => .ok []
  | .inWord, w, [] => .ok [w]
  | .inApostrophes, _, [] => .error .unclosedQuote
  | .inQuotes, _, [] => .error .unclosedQuote
  | .escaped, _, [] => .error .nothingEscaped
  | .escapedInQuotes, _, [] => .error .nothingEscaped
  | .between, _, c :: rest =>
    if separatesWords c then splitFrom .between [] rest
    else
      match Place.enter c with
      | some p => splitFrom p [] rest
      | none => splitFrom .inWord [c] rest
  | .inWord, w, c :: rest =>
    if separatesWords c then (splitFrom .between [] rest).map (w :: ·)
    else
      match Place.enter c with
      | some p => splitFrom p w rest
      | none => splitFrom .inWord (w ++ [c]) rest
  | .inApostrophes, w, c :: rest =>
    if c = apostrophe then splitFrom .inWord w rest
    else splitFrom .inApostrophes (w ++ [c]) rest
  | .inQuotes, w, c :: rest =>
    if c = '"' then splitFrom .inWord w rest
    else if c = '\\' then splitFrom .escapedInQuotes w rest
    else splitFrom .inQuotes (w ++ [c]) rest
  | .escaped, w, c :: rest => splitFrom .inWord (w ++ [c]) rest
  | .escapedInQuotes, w, c :: rest =>
    if c = '"' || c = '\\' then splitFrom .inQuotes (w ++ [c]) rest
    else splitFrom .inQuotes (w ++ ['\\', c]) rest

def splitWords (s : String) : Except SplitError (List String) :=
  (splitFrom .between [] s.toList).map (·.map String.ofList)

end AsmLens.Text
