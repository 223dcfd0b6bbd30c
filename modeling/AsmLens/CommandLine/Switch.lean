import AsmLens.Text.Front

namespace AsmLens.CommandLine

inductive Misuse where
  | unknownOption (name : String)
  | ambiguousOption (name : String)
  | missingValue (name : String)
  | unexpectedValue (name : String)
  | unexpectedArgument (argument : String)
  | unknownCommand (name : String)
  | missingCommand
  | unknownChoice (choice : String)
  | unusableInput (path : String)
  | unusablePath (path : String)
  | sizesExclude
  deriving DecidableEq, Repr

/-- What was wrong, in words of our own: only the exit code of a misuse is settled. -/
def Misuse.message : Misuse → String
  | .unknownOption name => "No such option: " ++ name
  | .ambiguousOption name => "Ambiguous option: " ++ name
  | .missingValue name => "Option needs a value: " ++ name
  | .unexpectedValue name => "Option takes no value: " ++ name
  | .unexpectedArgument argument => "Unexpected argument: " ++ argument
  | .unknownCommand name => "No such command: " ++ name
  | .missingCommand => "Missing command"
  | .unknownChoice choice => "Not one of the choices: " ++ choice
  | .unusableInput path => "Not a file that can be read: " ++ path
  | .unusablePath path => "Not the name of a file: " ++ path
  | .sizesExclude => "--m32 and --m64 are mutually exclusive"

inductive Given where
  | text (s : String)
  | flag (on : Bool)
  deriving DecidableEq, Repr

structure Switch (κ : Type) where
  names : List String
  key : κ
  means : Option Bool
  deriving Repr

structure Parsed (κ : Type) where
  given : List (κ × Given)
  extra : List String
  deriving Repr

namespace Switch

variable {κ : Type}

def find? (switches : List (Switch κ)) (name : String) : Option (Switch κ) :=
  switches.find? fun s => s.names.contains name

def findLong? (switches : List (Switch κ)) (name : String) : Option (Switch κ) :=
  if 2 < name.length then find? switches name else none

def readCluster (switches : List (Switch κ)) :
    List Char → Except Misuse (List (κ × Given) × Option κ)
  | [] => .ok ([], none)
  | c :: rest =>
    let name := String.ofList ['-', c]
    match find? switches name with
    | none => .error (.unknownOption name)
    | some s =>
      match s.means with
      | some on => do
        let (given, wants) ← readCluster switches rest
        return ((s.key, .flag on) :: given, wants)
      | none =>
        if rest.isEmpty then .ok ([], some s.key)
        else .ok ([(s.key, .text (String.ofList rest))], none)

def splitName (argument : String) : String × Option String :=
  let cs := argument.toList
  match cs.dropWhile (· != '=') with
  | [] => (argument, none)
  | _ :: value => (String.ofList (cs.takeWhile (· != '=')), some (String.ofList value))

def readArgument (switches : List (Switch κ)) (argument : String) :
    Except Misuse (List (κ × Given) × Option κ) :=
  let (name, value) := splitName argument
  match findLong? switches name with
  | some s =>
    match s.means, value with
    | some on, none => .ok ([(s.key, .flag on)], none)
    | some _, some _ => .error (.unexpectedValue name)
    | none, some v => .ok ([(s.key, .text v)], none)
    | none, none => .ok ([], some s.key)
  | none =>
    match argument.toList with
    | '-' :: '-' :: _ => .error (.unknownOption name)
    | '-' :: letters => readCluster switches letters
    | _ => .error (.unknownOption name)

def isOption (argument : String) : Bool :=
  match argument.toList with
  | '-' :: _ :: _ => true
  | _ => false

/-- Reads options up to a double hyphen; with `mixed` also those after other arguments. -/
def parse (switches : List (Switch κ)) (mixed : Bool) : List String → Except Misuse (Parsed κ)
  | [] => .ok { given := [], extra := [] }
  | a :: rest =>
    if a = "--" then .ok { given := [], extra := rest }
    else if isOption a then
      match readArgument switches a with
      | .error m => .error m
      | .ok (given, none) => do
        let p ← parse switches mixed rest
        return { p with given := given ++ p.given }
      | .ok (given, some key) =>
        match rest with
        | [] => .error (.missingValue a)
        | v :: rest => do
          let p ← parse switches mixed rest
          return { p with given := given ++ (key, .text v) :: p.given }
    else if mixed then do
      let p ← parse switches mixed rest
      return { p with extra := a :: p.extra }
    else .ok { given := [], extra := a :: rest }

end Switch

namespace Parsed

variable {κ : Type} [DecidableEq κ]

def texts (p : Parsed κ) (key : κ) : List String :=
  p.given.filterMap fun g =>
    match g with
    | (k, .text s) => if k = key then some s else none
    | (_, .flag _) => none

def text? (p : Parsed κ) (key : κ) : Option String := (p.texts key).getLast?

def path? (p : Parsed κ) (key : κ) : Except Misuse (Option String) :=
  match p.text? key with
  | none => .ok none
  | some path => if path.toList.contains '\x00' then .error (.unusablePath path) else .ok (some path)

def flags (p : Parsed κ) (key : κ) : List Bool :=
  p.given.filterMap fun g =>
    match g with
    | (k, .flag on) => if k = key then some on else none
    | (_, .text _) => none

def flag (p : Parsed κ) (key : κ) (fallback : Bool) : Bool := (p.flags key).getLast?.getD fallback

end Parsed

end AsmLens.CommandLine
