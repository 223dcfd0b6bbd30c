import AsmLens.CommandLine.Switch
import AsmLens.Text.Numeral

namespace AsmLens.CommandLine.Shortened

variable {κ : Type}

inductive Role (κ : Type) where
  | value (s : String)
  | option (switch : Switch κ) (value : Option String)
  | letters (switch : Switch κ) (rest : List Char)
  | unknown (name : String)
  | divider

def isLong (name : String) : Bool := Text.starts ['-', '-'] name.toList

def candidates (switches : List (Switch κ)) (name : String) : List (Switch κ) :=
  switches.flatMap fun s =>
    (s.names.filter fun n => Text.starts name.toList n.toList).map fun _ => s

def isNumber (s : List Char) : Bool := !s.isEmpty && s.all Text.isNumeral

def isAmount (s : List Char) : Bool :=
  isNumber s ||
    (match s.dropWhile Text.isNumeral with
      | '.' :: fraction => isNumber fraction
      | _ => false)

def dropNewline (s : List Char) : List Char := if s.getLast? = some '\n' then s.dropLast else s

def isNegative (argument : String) : Bool :=
  match argument.toList with
  | '-' :: s => isAmount (dropNewline s)
  | _ => false

def guess (argument : String) : Role κ :=
  if isNegative argument || argument.toList.contains ' ' then .value argument
  else .unknown argument

def roleOfLong (switches : List (Switch κ)) (argument : String) : Except Misuse (Role κ) :=
  let (name, value) := Switch.splitName argument
  match candidates switches name with
  | [] => .ok (guess argument)
  | [s] => .ok (.option s value)
  | _ => .error (.ambiguousOption argument)

def roleOfShort (switches : List (Switch κ)) (argument : String) : Role κ :=
  match Switch.find? switches (String.ofList (argument.toList.take 2)) with
  | some s => .letters s (argument.toList.drop 2)
  | none => guess argument

def roleOf (switches : List (Switch κ)) (argument : String) : Except Misuse (Role κ) :=
  if argument = "--" then .ok .divider
  else if !Switch.isOption argument then .ok (.value argument)
  else
    match Switch.find? switches argument with
    | some s => .ok (.option s none)
    | none =>
      let (name, value) := Switch.splitName argument
      match Switch.find? switches name, value with
      | some s, some v => .ok (.option s (some v))
      | _, _ =>
        if isLong argument then roleOfLong switches argument
        else .ok (roleOfShort switches argument)

def roles (switches : List (Switch κ)) : List String → Except Misuse (List (Role κ))
  | [] => .ok []
  | a :: rest => do
    match ← roleOf switches a with
    | .divider => return .divider :: rest.map .value
    | r => return r :: (← roles switches rest)

def readLetters (switches : List (Switch κ)) : List Char → Except Misuse (List (κ × Given))
  | [] => .ok []
  | c :: rest =>
    let name := String.ofList ['-', c]
    match Switch.find? switches name with
    | some s =>
      match s.means with
      | some on => do return (s.key, .flag on) :: (← readLetters switches rest)
      | none => .error (.missingValue name)
    | none => .error (.unexpectedValue name)

def read (switches : List (Switch κ)) (stops : κ → Bool) : List (Role κ) → Except Misuse (Parsed κ)
  | [] => .ok { given := [], extra := [] }
  | .value s :: rest => do
    let p ← read switches stops rest
    return { p with extra := s :: p.extra }
  | .unknown name :: rest => do
    let p ← read switches stops rest
    return { p with extra := name :: p.extra }
  | .divider :: rest => do
    let p ← read switches stops rest
    return { p with extra := "--" :: p.extra }
  | .letters s letters :: rest => do
    match s.means with
    | none => .error (.unexpectedValue (s.names.headD ""))
    | some on =>
      let given := (s.key, .flag on) :: (← readLetters switches letters)
      if given.any fun g => stops g.1 then return { given, extra := [] }
      let p ← read switches stops rest
      return { p with given := given ++ p.given }
  | .option s value :: rest => do
    match s.means, value with
    | some _, some _ => .error (.unexpectedValue (s.names.headD ""))
    | some on, none =>
      if stops s.key then return { given := [(s.key, .flag on)], extra := [] }
      let p ← read switches stops rest
      return { p with given := (s.key, .flag on) :: p.given }
    | none, some v =>
      let p ← read switches stops rest
      return { p with given := (s.key, .text v) :: p.given }
    | none, none =>
      match rest with
      | .value v :: rest =>
        let p ← read switches stops rest
        return { p with given := (s.key, .text v) :: p.given }
      | _ => .error (.missingValue (s.names.headD ""))

def parse (switches : List (Switch κ)) (stops : κ → Bool) (arguments : List String) :
    Except Misuse (Parsed κ) := do
  read switches stops (← roles switches arguments)

end AsmLens.CommandLine.Shortened
