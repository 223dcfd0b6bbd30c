import AsmLens.Number.Digits
import AsmLens.Text.Front
import AsmLens.Text.Hex
import AsmLens.Value.Basic

namespace AsmLens.Json

def isSpace (c : Char) : Bool := c == ' ' || c == '\t' || c == '\n' || c == '\r'

def skipSpace (s : List Char) : List Char := s.dropWhile isSpace

def readFraction : List Char → List Char × List Char
  | '.' :: s =>
    match s.takeWhile isDigit with
    | [] => ([], '.' :: s)
    | ds => (ds, s.dropWhile isDigit)
  | s => ([], s)

def readExponent? (s : List Char) : Option (Int × List Char) :=
  let digits (negative : Bool) (s : List Char) : Option (Int × List Char) :=
    match s.takeWhile isDigit with
    | [] => none
    | ds => some ((if negative then -(digitsValue ds : Int) else digitsValue ds), s.dropWhile isDigit)
  match s with
  | e :: s =>
    if e = 'e' || e = 'E' then
      match s with
      | '-' :: s => digits true s
      | '+' :: s => digits false s
      | s => digits false s
    else none
  | [] => none

def readNumber? (negative : Bool) (s : List Char) : Option (Value × List Char) :=
  let whole := match s with
    | '0' :: rest => (['0'], rest)
    | s => (s.takeWhile isDigit, s.dropWhile isDigit)
  match whole with
  | ([], _) => none
  | (ds, rest) =>
    let (fraction, rest) := readFraction rest
    match readExponent? rest with
    | some (e, rest) =>
      some (.float (.ofDecimal negative (digitsValue (ds ++ fraction)) (e - fraction.length)), rest)
    | none =>
      if fraction.isEmpty then
        some (.int (if negative then -(digitsValue ds : Int) else digitsValue ds), rest)
      else
        some (.float (.ofDecimal negative (digitsValue (ds ++ fraction)) (-fraction.length)), rest)

def readUnits? (s : List Char) : Option (Char × List Char) := do
  let (n, rest) ← Text.readHex? 4 s
  if 0xd800 ≤ n && n < 0xdc00 then
    match rest with
    | '\\' :: 'u' :: more =>
      let (m, after) ← Text.readHex? 4 more
      if 0xdc00 ≤ m && m < 0xe000 then
        return (Char.ofNat (0x10000 + (n - 0xd800) * 0x400 + (m - 0xdc00)), after)
      else return (Char.ofNat 0xfffd, rest)
    | _ => return (Char.ofNat 0xfffd, rest)
  else if 0xdc00 ≤ n && n < 0xe000 then return (Char.ofNat 0xfffd, rest)
  else return (Char.ofNat n, rest)

def shortEscape? (c : Char) : Option Char :=
  if c = '"' || c = '\\' || c = '/' then some c
  else if c = 'n' then some '\n'
  else if c = 'r' then some '\r'
  else if c = 't' then some '\t'
  else if c = 'f' then some '\x0c'
  else if c = 'b' then some '\x08'
  else none

def readQuoted? : Nat → List Char → Option (List Char × List Char)
  | 0, _ => none
  | _, [] => none
  | n + 1, '\\' :: c :: rest => do
    let (c, rest) ← if c = 'u' then readUnits? rest else (shortEscape? c).map (·, rest)
    let (cs, rest) ← readQuoted? n rest
    return (c :: cs, rest)
  | n + 1, c :: rest =>
    if c = '"' then some ([], rest)
    else if c = '\\' || c.toNat < 0x20 then none
    else do
      let (cs, rest) ← readQuoted? n rest
      return (c :: cs, rest)

def readText? (s : List Char) : Option (String × List Char) := do
  match s with
  | '"' :: rest =>
    let (cs, rest) ← readQuoted? (rest.length + 1) rest
    return (String.ofList cs, rest)
  | _ => none

mutual

def readValue? : Nat → List Char → Option (Value × List Char)
  | 0, _ => none
  | n + 1, s =>
    match s with
    | [] => none
    | '"' :: _ => do
      let (t, rest) ← readText? s
      return (.text t, rest)
    | '[' :: rest =>
      match skipSpace rest with
      | ']' :: rest => some (.array [], rest)
      | rest => do
        let (items, rest) ← readItems? n rest
        return (.array items, rest)
    | '\x7b' :: rest =>
      match skipSpace rest with
      | '\x7d' :: rest => some (.table [], rest)
      | rest => do
        let (entries, rest) ← readEntries? n [] rest
        return (.table entries, rest)
    | 'n' :: _ => (Text.drop? "null".toList s).map (.null, ·)
    | 't' :: _ => (Text.drop? "true".toList s).map (.bool true, ·)
    | 'f' :: _ => (Text.drop? "false".toList s).map (.bool false, ·)
    | 'N' :: _ => (Text.drop? "NaN".toList s).map (.float .nan, ·)
    | 'I' :: _ => (Text.drop? "Infinity".toList s).map (.float (.infinite false), ·)
    | '-' :: 'I' :: _ => (Text.drop? "-Infinity".toList s).map (.float (.infinite true), ·)
    | '-' :: rest => readNumber? true rest
    | s => readNumber? false s

def readItems? : Nat → List Char → Option (List Value × List Char)
  | 0, _ => none
  | n + 1, s => do
    let (v, rest) ← readValue? n (skipSpace s)
    match skipSpace rest with
    | ']' :: rest => return ([v], rest)
    | ',' :: rest =>
      let (vs, rest) ← readItems? n rest
      return (v :: vs, rest)
    | _ => none

def readEntries? : Nat → Entries → List Char → Option (Entries × List Char)
  | 0, _, _ => none
  | n + 1, es, s => do
    let (k, rest) ← readText? (skipSpace s)
    match skipSpace rest with
    | ':' :: rest =>
      let (v, rest) ← readValue? n (skipSpace rest)
      let es := Assoc.put es k v
      match skipSpace rest with
      | '\x7d' :: rest => return (es, rest)
      | ',' :: rest => readEntries? n es rest
      | _ => none
    | _ => none

end

def parse? (s : String) : Option Value :=
  let cs := s.toList
  match readValue? (2 * cs.length + 2) (skipSpace cs) with
  | some (v, rest) => if (skipSpace rest).isEmpty then some v else none
  | none => none

end AsmLens.Json
