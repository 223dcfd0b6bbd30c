import AsmLens.Assoc
import AsmLens.Text.Blank
import AsmLens.Text.Front
import AsmLens.Text.Lines

namespace AsmLens

abbrev Environ := Assoc String String

namespace Variables

inductive Statement where
  | assign (key value : String)
  | mention (key : String)
  | blank
  | unreadable (line : Nat)
  deriving DecidableEq, Repr

def isInlineBlank (c : Char) : Bool := Text.isBlank c && c != '\n' && c != '\r'

def skipInline (s : List Char) : List Char := s.dropWhile isInlineBlank

def skipExport (s : List Char) : List Char :=
  match Text.drop? ['e', 'x', 'p', 'o', 'r', 't'] s with
  | some (c :: rest) => if isInlineBlank c then skipInline rest else s
  | _ => s

def isKeyChar (c : Char) : Bool := c != '=' && c != '#' && !Text.isBlank c

def readKey? (s : List Char) : Option (List Char × List Char) :=
  match s with
  | '\x27' :: rest =>
    match rest.takeWhile (· != '\x27'), rest.dropWhile (· != '\x27') with
    | [], _ => none
    | _, [] => none
    | k, _ :: rest => some (k, rest)
  | s =>
    match s.takeWhile isKeyChar with
    | [] => none
    | k => some (k, s.dropWhile isKeyChar)

def readBetween? (quote : Char) : List Char → Option (List Char × List Char)
  | [] => none
  | '\\' :: c :: rest => (readBetween? quote rest).map fun r => ('\\' :: c :: r.1, r.2)
  | c :: rest =>
    if c = quote then some ([], rest)
    else (readBetween? quote rest).map fun r => (c :: r.1, r.2)

def apostropheEscape? (c : Char) : Option Char := if c = '\\' || c = '\x27' then some c else none

def quoteEscape? (c : Char) : Option Char :=
  if c = '\\' || c = '\x27' || c = '"' then some c
  else if c = 'a' then some '\x07'
  else if c = 'b' then some '\x08'
  else if c = 'f' then some '\x0c'
  else if c = 'n' then some '\n'
  else if c = 'r' then some '\r'
  else if c = 't' then some '\t'
  else if c = 'v' then some '\x0b'
  else none

def unescape (escape? : Char → Option Char) : List Char → List Char
  | '\\' :: c :: rest =>
    match escape? c with
    | some d => d :: unescape escape? rest
    | none => '\\' :: unescape escape? (c :: rest)
  | c :: rest => c :: unescape escape? rest
  | [] => []

def cutComment : List Char → List Char
  | [] => []
  | c :: rest =>
    if Text.isBlank c && (rest.dropWhile Text.isBlank).head? = some '#' then []
    else c :: cutComment rest

def readValue? (s : List Char) : Option (List Char × List Char) :=
  match skipInline s with
  | '\x27' :: rest => (readBetween? '\x27' rest).map fun r => (unescape apostropheEscape? r.1, r.2)
  | '"' :: rest => (readBetween? '"' rest).map fun r => (unescape quoteEscape? r.1, r.2)
  | _ =>
    let line := cutComment (s.takeWhile (· != '\n'))
    some (Text.trimRight (skipInline line), s.dropWhile (· != '\n'))

def skipComment (s : List Char) : List Char :=
  match skipInline s with
  | '#' :: rest => rest.dropWhile (· != '\n')
  | _ => s

def endLine? (s : List Char) : Option (List Char) :=
  match skipInline s with
  | [] => some []
  | '\n' :: rest => some rest
  | _ => none

def skipLine (s : List Char) : List Char := (s.dropWhile (· != '\n')).drop 1

def readBinding (s : List Char) : Except (List Char) (Statement × List Char) :=
  let s := skipExport s
  match s with
  | '#' :: _ => .ok (.blank, s)
  | _ =>
    match readKey? s with
    | none => .error s
    | some (k, rest) =>
      match skipInline rest with
      | '=' :: rest =>
        match readValue? rest with
        | some (v, rest) => .ok (.assign (String.ofList k) (String.ofList v), rest)
        | none => .error (skipInline rest)
      | rest => .ok (.mention (String.ofList k), rest)

def readStatement (line : Nat) (s : List Char) : Statement × List Char :=
  match s.dropWhile Text.isBlank with
  | [] => (.blank, [])
  | start =>
    match readBinding start with
    | .error rest => (.unreadable line, skipLine rest)
    | .ok (statement, rest) =>
      match endLine? (skipComment rest) with
      | some rest => (statement, rest)
      | none => (.unreadable line, skipLine (skipComment rest))

def readAll : Nat → Nat → List Char → List Statement
  | 0, _, _ => []
  | _, _, [] => []
  | n + 1, line, s =>
    let (statement, rest) := readStatement line s
    statement :: readAll n (line + (s.count '\n' - rest.count '\n')) rest

def dropMark : List Char → List Char
  | '\ufeff' :: s => s
  | s => s

def parse (s : List Char) : List Statement :=
  let s := Text.unifyLineEnds (dropMark s)
  readAll s.length 1 s

def readReference? (s : List Char) : Option (String × String × List Char) :=
  let isName (c : Char) := c != '\x7d' && c != ':'
  let name := String.ofList (s.takeWhile isName)
  match s.dropWhile isName with
  | '\x7d' :: rest => some (name, "", rest)
  | ':' :: '-' :: rest =>
    match rest.dropWhile (· != '\x7d') with
    | _ :: after => some (name, String.ofList (rest.takeWhile (· != '\x7d')), after)
    | [] => none
  | _ => none

def expandFrom (value : String → String → String) : Nat → List Char → List Char
  | 0, s => s
  | _, [] => []
  | n + 1, c :: rest =>
    if c = '$' then
      match rest with
      | '\x7b' :: more =>
        match readReference? more with
        | some (name, fallback, after) =>
          (value name fallback).toList ++ expandFrom value n after
        | none => c :: expandFrom value n rest
      | _ => c :: expandFrom value n rest
    else c :: expandFrom value n rest

/-- The environment comes before what the file has set so far; a name that the file only mentions
stands for nothing. -/
def lookUp (environ : Environ) (found : Assoc String (Option String)) (name fallback : String) : String :=
  match Assoc.get? environ name with
  | some v => v
  | none =>
    match Assoc.get? found name with
    | some v => v.getD ""
    | none => fallback

def expand (environ : Environ) (found : Assoc String (Option String)) (s : String) : String :=
  let cs := s.toList
  String.ofList (expandFrom (lookUp environ found) (cs.length + 1) cs)

def resolve (environ : Environ) (found : Assoc String (Option String)) :
    List Statement → Assoc String (Option String)
  | [] => found
  | .assign k v :: rest => resolve environ (Assoc.put found k (some (expand environ found v))) rest
  | .mention k :: rest => resolve environ (Assoc.put found k none) rest
  | _ :: rest => resolve environ found rest

def isStorable (k v : String) : Bool :=
  !k.toList.contains '=' && !k.toList.contains '\x00' && !v.toList.contains '\x00'

def addTo? (environ : Environ) : Assoc String (Option String) → Option Environ
  | [] => some environ
  | (k, v) :: rest =>
    match v with
    | none => addTo? environ rest
    | some v =>
      if Assoc.has environ k then addTo? environ rest
      else if isStorable k v then addTo? (Assoc.put environ k v) rest
      else none

def load? (environ : Environ) (statements : List Statement) : Option Environ :=
  addTo? environ (resolve environ [] statements)

def switchOff : String := "PYTHON_DOTENV_DISABLED"

def yesWords : List String := ["1", "true", "t", "yes", "y"]

def foldCase (c : Char) : Char := if c = 'ſ' then 's' else c.toLower

def isOff (environ : Environ) : Bool :=
  match Assoc.get? environ switchOff with
  | none => false
  | some v => yesWords.contains (String.ofList (v.toList.map foldCase))

def warning? : Statement → Option String
  | .unreadable line =>
    some ("python-dotenv could not parse statement starting at line " ++ toString line)
  | _ => none

end Variables

end AsmLens
