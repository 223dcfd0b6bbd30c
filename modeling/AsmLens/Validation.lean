import AsmLens.Value.Basic

namespace AsmLens

inductive Step where
  | field (name : String)
  | item (index : Nat)
  deriving DecidableEq, Repr

inductive Cause where
  | notBool
  | unreadableBool
  | notText
  | notSequence
  | notList
  | notChoice
  | notWordSize
  | outsideWord
  | unknownLanguage
  | notSection
  | notTable
  | readOnly
  deriving DecidableEq, Repr

structure Problem where
  path : List Step
  cause : Cause
  deriving DecidableEq, Repr

/-- A value with the problems met on the way; with any problem the value only stands in. -/
structure Reading (α : Type) where
  value : α
  problems : List Problem

def Reading.isClean {α : Type} (r : Reading α) : Bool := r.problems.isEmpty

def Reading.toExcept {α : Type} (r : Reading α) : Except (List Problem) α :=
  if r.isClean then .ok r.value else .error r.problems

namespace Value

def trueWords : List String := ["1", "t", "y", "on", "yes", "true"]

def falseWords : List String := ["0", "f", "n", "off", "no", "false"]

def isWord64 (n : Int) : Bool := -9223372036854775808 ≤ n && n ≤ 9223372036854775807

def readBool : Value → Except Cause Bool
  | .bool b => .ok b
  | .int n =>
    if n = 0 then .ok false
    else if n = 1 then .ok true
    else if isWord64 n then .error .unreadableBool
    else .error .notBool
  | .float x =>
    if x.isNat 0 then .ok false
    else if x.isNat 1 then .ok true
    else if x.isWord64 then .error .unreadableBool
    else .error .notBool
  | .text s =>
    let lower := String.ofList (s.toList.map Char.toLower)
    if trueWords.contains lower then .ok true
    else if falseWords.contains lower then .ok false
    else .error .unreadableBool
  | _ => .error .notBool

def readText : Value → Except Cause String
  | .text s => .ok s
  | _ => .error .notText

def readItems (path : List Step) (index : Nat) : List Value → Reading (List String)
  | [] => { value := [], problems := [] }
  | v :: vs =>
    let rest := readItems path (index + 1) vs
    match readText v with
    | .ok s => { rest with value := s :: rest.value }
    | .error c => { rest with problems := { path := path ++ [.item index], cause := c } :: rest.problems }

def readTexts (path : List Step) (otherwise : Cause) : Value → Reading (List String)
  | .array items => readItems path 0 items
  | _ => { value := [], problems := [{ path, cause := otherwise }] }

end Value

namespace Entries

def read {α : Type} (es : Entries) (name : String) (fallback : α) (reader : Value → Except Cause α) :
    Reading α :=
  match Assoc.get? es name with
  | none => { value := fallback, problems := [] }
  | some v =>
    match reader v with
    | .ok a => { value := a, problems := [] }
    | .error c => { value := fallback, problems := [{ path := [.field name], cause := c }] }

def readBool (es : Entries) (name : String) (fallback : Bool) : Reading Bool :=
  es.read name fallback Value.readBool

def readText (es : Entries) (name : String) (fallback : String) : Reading String :=
  es.read name fallback Value.readText

def readTexts (es : Entries) (name : String) (fallback : List String) (otherwise : Cause) :
    Reading (List String) :=
  match Assoc.get? es name with
  | none => { value := fallback, problems := [] }
  | some v => v.readTexts [.field name] otherwise

end Entries

end AsmLens
