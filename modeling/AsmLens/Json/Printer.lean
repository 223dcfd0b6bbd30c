import AsmLens.Number.Shortest
import AsmLens.Text.Hex
import AsmLens.Value.Basic

namespace AsmLens.Json

structure Layout where
  indent : Option Nat
  asciiOnly : Bool

def Layout.pretty (asciiOnly : Bool) : Layout := { indent := some 2, asciiOnly }

def Layout.oneLine : Layout := { indent := none, asciiOnly := true }

def unitEscape (n : Nat) : List Char := '\\' :: 'u' :: Text.hexDigits 4 n

def unitEscapes (c : Char) : List Char :=
  let n := c.toNat
  if n < 0x10000 then unitEscape n
  else
    unitEscape (0xd800 + (n - 0x10000) / 0x400) ++ unitEscape (0xdc00 + (n - 0x10000) % 0x400)

def escapeChar (asciiOnly : Bool) (c : Char) : List Char :=
  if c = '"' then ['\\', '"']
  else if c = '\\' then ['\\', '\\']
  else if c = '\n' then ['\\', 'n']
  else if c = '\r' then ['\\', 'r']
  else if c = '\t' then ['\\', 't']
  else if c.toNat = 0x0c then ['\\', 'f']
  else if c.toNat = 0x08 then ['\\', 'b']
  else if c.toNat < 0x20 || (asciiOnly && 0x7f ≤ c.toNat) then unitEscapes c
  else [c]

def quoted (asciiOnly : Bool) (s : String) : List Char :=
  '"' :: (s.toList.flatMap (escapeChar asciiOnly) ++ ['"'])

def Layout.lineBreak (l : Layout) (depth : Nat) : List Char :=
  match l.indent with
  | none => []
  | some n => '\n' :: List.replicate (n * depth) ' '

def Layout.comma (l : Layout) (depth : Nat) : List Char :=
  match l.indent with
  | none => [',', ' ']
  | some _ => ',' :: l.lineBreak depth

mutual

def write (l : Layout) (depth : Nat) : Value → List Char
  | .null => "null".toList
  | .bool b => (if b then "true" else "false").toList
  | .int n => (toString n).toList
  | .float x => x.toText.toList
  | .text s => quoted l.asciiOnly s
  | .moment m => quoted l.asciiOnly m.toText
  | .array [] => ['[', ']']
  | .array (v :: vs) =>
    '[' :: (l.lineBreak (depth + 1) ++ write l (depth + 1) v ++ writeItems l (depth + 1) vs ++
      l.lineBreak depth ++ [']'])
  | .table [] => ['\x7b', '\x7d']
  | .table ((k, v) :: es) =>
    '\x7b' :: (l.lineBreak (depth + 1) ++ quoted l.asciiOnly k ++ [':', ' '] ++
      write l (depth + 1) v ++ writeEntries l (depth + 1) es ++ l.lineBreak depth ++ ['\x7d'])

def writeItems (l : Layout) (depth : Nat) : List Value → List Char
  | [] => []
  | v :: vs => l.comma depth ++ write l depth v ++ writeItems l depth vs

def writeEntries (l : Layout) (depth : Nat) : List (String × Value) → List Char
  | [] => []
  | (k, v) :: es =>
    l.comma depth ++ quoted l.asciiOnly k ++ [':', ' '] ++ write l depth v ++
      writeEntries l depth es

end

def toText (l : Layout) (v : Value) : String := String.ofList (write l 0 v)

end AsmLens.Json
