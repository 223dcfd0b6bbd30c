import AsmLens.Number.Digits
import AsmLens.Text.Front
import AsmLens.Text.Hex
import AsmLens.Value.Basic

namespace AsmLens.Toml

inductive Mistake where
  | malformed
  | tooManyDigits
  deriving DecidableEq, Repr

abbrev Front (α : Type) := α × List Char

abbrev Key := List String

def isSpace (c : Char) : Bool := c == ' ' || c == '\t'

def skipSpace (s : List Char) : List Char := s.dropWhile isSpace

def isSpaceOrNewline (c : Char) : Bool := isSpace c || c == '\n'

def isControl (c : Char) : Bool := c.toNat < 0x20 || c.toNat == 0x7f

def isLineText (c : Char) : Bool := !isControl c || c == '\t'

def isText (c : Char) : Bool := isLineText c || c == '\n'

def isBare (c : Char) : Bool := c.isAlphanum || c == '-' || c == '_'

def skipComment (s : List Char) : Except Mistake (List Char) :=
  match s with
  | '#' :: rest =>
    if (rest.takeWhile (· != '\n')).all isLineText then .ok (rest.dropWhile (· != '\n'))
    else .error .malformed
  | s => .ok s

def shortEscape? (c : Char) : Option Char :=
  if c = '"' || c = '\\' then some c
  else if c = 'b' then some '\x08'
  else if c = 't' then some '\t'
  else if c = 'n' then some '\n'
  else if c = 'f' then some '\x0c'
  else if c = 'r' then some '\r'
  else none

def isScalar (n : Nat) : Bool := n < 0xd800 || (0xdfff < n && n < 0x110000)

def readEscape : List Char → Except Mistake (Front Char)
  | [] => .error .malformed
  | c :: rest =>
    if c = 'u' || c = 'U' then
      match Text.readHex? (if c = 'u' then 4 else 8) rest with
      | some (n, rest) => if isScalar n then .ok (Char.ofNat n, rest) else .error .malformed
      | none => .error .malformed
    else
      match shortEscape? c with
      | some d => .ok (d, rest)
      | none => .error .malformed

def skipLineEnd? (s : List Char) : Option (Except Mistake (List Char)) :=
  match s with
  | [] => none
  | c :: _ =>
    if !isSpaceOrNewline c then none
    else
      match skipSpace s with
      | [] => some (.ok [])
      | '\n' :: rest => some (.ok (rest.dropWhile isSpaceOrNewline))
      | _ => some (.error .malformed)

def readBasic : Nat → List Char → Except Mistake (Front (List Char))
  | 0, _ => .error .malformed
  | _, [] => .error .malformed
  | n + 1, c :: rest => do
    if c = '"' then return ([], rest)
    else if c = '\\' then
      let (d, rest) ← readEscape rest
      let (cs, rest) ← readBasic n rest
      return (d :: cs, rest)
    else if isLineText c then
      let (cs, rest) ← readBasic n rest
      return (c :: cs, rest)
    else .error .malformed

def readBlock : Nat → List Char → Except Mistake (Front (List Char))
  | 0, _ => .error .malformed
  | _, [] => .error .malformed
  | n + 1, c :: rest => do
    if c = '"' then
      match rest with
      | '"' :: '"' :: after => return ([], after)
      | _ =>
        let (cs, rest) ← readBlock n rest
        return (c :: cs, rest)
    else if c = '\\' then
      match skipLineEnd? rest with
      | some skipped => readBlock n (← skipped)
      | none =>
        let (d, rest) ← readEscape rest
        let (cs, rest) ← readBlock n rest
        return (d :: cs, rest)
    else if isText c then
      let (cs, rest) ← readBlock n rest
      return (c :: cs, rest)
    else .error .malformed

def readLiteral : List Char → Except Mistake (Front (List Char))
  | [] => .error .malformed
  | c :: rest => do
    if c = '\x27' then return ([], rest)
    else if isLineText c then
      let (cs, rest) ← readLiteral rest
      return (c :: cs, rest)
    else .error .malformed

def readLiteralBlock : List Char → Except Mistake (Front (List Char))
  | [] => .error .malformed
  | '\x27' :: '\x27' :: '\x27' :: rest => return ([], rest)
  | c :: rest => do
    if isText c then
      let (cs, rest) ← readLiteralBlock rest
      return (c :: cs, rest)
    else .error .malformed

def dropNewline : List Char → List Char
  | '\n' :: rest => rest
  | s => s

def extraQuotes (quote : Char) (cs rest : List Char) : List Char × List Char :=
  match rest with
  | [] => (cs, rest)
  | a :: after =>
    if a != quote then (cs, rest)
    else
      match after with
      | [] => (cs ++ [quote], after)
      | b :: more => if b = quote then (cs ++ [quote, quote], more) else (cs ++ [quote], after)

def readString (s : List Char) : Except Mistake (Front String) := do
  let (cs, rest) ← match s with
    | '"' :: '"' :: '"' :: rest =>
      (readBlock (rest.length + 1) (dropNewline rest)).map fun r => extraQuotes '"' r.1 r.2
    | '"' :: rest => readBasic (rest.length + 1) rest
    | '\x27' :: '\x27' :: '\x27' :: rest =>
      (readLiteralBlock (dropNewline rest)).map fun r => extraQuotes '\x27' r.1 r.2
    | '\x27' :: rest => readLiteral rest
    | _ => .error .malformed
  return (String.ofList cs, rest)

def readKeyPart (s : List Char) : Except Mistake (Front String) :=
  match s with
  | [] => .error .malformed
  | c :: rest =>
    if isBare c then .ok (String.ofList (s.takeWhile isBare), s.dropWhile isBare)
    else if c = '"' then
      (readBasic (rest.length + 1) rest).map fun r => (String.ofList r.1, r.2)
    else if c = '\x27' then (readLiteral rest).map fun r => (String.ofList r.1, r.2)
    else .error .malformed

def readKeyParts : Nat → List Char → Except Mistake (Front Key)
  | 0, _ => .error .malformed
  | n + 1, s => do
    let (k, rest) ← readKeyPart s
    match skipSpace rest with
    | '.' :: rest =>
      let (ks, rest) ← readKeyParts n (skipSpace rest)
      return (k :: ks, rest)
    | rest => return ([k], rest)

def readKey (s : List Char) : Except Mistake (Front Key) := readKeyParts (s.length + 1) s

def digitTail (p : Char → Bool) : List Char → List Char × List Char
  | [] => ([], [])
  | [c] => if p c then ([c], []) else ([], [c])
  | c :: d :: rest =>
    if p c then
      let (ds, after) := digitTail p (d :: rest)
      (c :: ds, after)
    else if c = '_' && p d then
      let (ds, after) := digitTail p rest
      (d :: ds, after)
    else ([], c :: d :: rest)

def digitRun (p : Char → Bool) (s : List Char) : List Char × List Char :=
  match s with
  | [] => ([], [])
  | c :: _ => if p c then digitTail p s else ([], s)

def isOctal (c : Char) : Bool := '0' ≤ c && c ≤ '7'

def isBinary (c : Char) : Bool := c == '0' || c == '1'

def baseValue (base : Nat) (ds : List Char) : Nat :=
  ds.foldl (fun n c => base * n + (Text.hexDigitValue? c).getD 0) 0

def readBased? (s : List Char) : Option (Nat × List Char) :=
  let digits (base : Nat) (p : Char → Bool) (s : List Char) :=
    match digitRun p s with
    | ([], _) => none
    | (ds, rest) => some (baseValue base ds, rest)
  match s with
  | '0' :: 'x' :: rest => digits 16 Text.isHexDigit rest
  | '0' :: 'o' :: rest => digits 8 isOctal rest
  | '0' :: 'b' :: rest => digits 2 isBinary rest
  | _ => none

def readSign : List Char → Bool × List Char
  | '-' :: rest => (true, rest)
  | '+' :: rest => (false, rest)
  | s => (false, s)

def readFraction : List Char → List Char × List Char
  | '.' :: s =>
    match digitRun isDigit s with
    | ([], _) => ([], '.' :: s)
    | (ds, rest) => (ds, rest)
  | s => ([], s)

def readExponent? : List Char → Option (Int × List Char)
  | e :: s =>
    if e = 'e' || e = 'E' then
      let (negative, s) := readSign s
      match digitRun isDigit s with
      | ([], _) => none
      | (ds, rest) =>
        some ((if negative then -(digitsValue ds : Int) else digitsValue ds), rest)
    else none
  | [] => none

def digitLimit : Nat := 4300

def readWhole (s : List Char) : List Char × List Char :=
  match s with
  | '0' :: rest => (['0'], rest)
  | s => digitRun isDigit s

def readDecimal? (s : List Char) : Option (Except Mistake (Front Value)) :=
  let (negative, s) := readSign s
  match readWhole s with
  | ([], _) => none
  | (ds, rest) =>
    let (fraction, rest) := readFraction rest
    let float (e : Int) :=
      Value.float (.ofDecimal negative (digitsValue (ds ++ fraction)) (e - fraction.length))
    match readExponent? rest with
    | some (e, rest) => some (.ok (float e, rest))
    | none =>
      if !fraction.isEmpty then some (.ok (float 0, rest))
      else if digitLimit < ds.length then some (.error .tooManyDigits)
      else some (.ok (.int (if negative then -(digitsValue ds : Int) else digitsValue ds), rest))

def readSpecial? (s : List Char) : Option (Binary64 × List Char) :=
  let (negative, rest) := readSign s
  match Text.drop? ['i', 'n', 'f'] rest with
  | some rest => some (.infinite negative, rest)
  | none => (Text.drop? ['n', 'a', 'n'] rest).map (.nan, ·)

def readField? (width least most : Nat) (s : List Char) : Option (Nat × List Char) :=
  let ds := s.take width
  if ds.length = width && ds.all isDigit && least ≤ digitsValue ds && digitsValue ds ≤ most then
    some (digitsValue ds, s.drop width)
  else none

def dropChar? (c : Char) (s : List Char) : Option (List Char) := Text.drop? [c] s

def readMicro (s : List Char) : Nat × List Char :=
  match s with
  | '.' :: rest =>
    match rest.takeWhile isDigit with
    | [] => (0, s)
    | ds =>
      (digitsValue ((ds ++ List.replicate 6 '0').take 6), rest.dropWhile isDigit)
  | s => (0, s)

def readTime? (s : List Char) : Option (Time × List Char) := do
  let (hour, s) ← readField? 2 0 23 s
  let (minute, s) ← readField? 2 0 59 (← dropChar? ':' s)
  let (second, s) ← readField? 2 0 59 (← dropChar? ':' s)
  let (micro, s) := readMicro s
  return ({ hour, minute, second, micro }, s)

def readDate? (s : List Char) : Option (Date × List Char) := do
  let (year, s) ← readField? 4 0 9999 s
  let (month, s) ← readField? 2 1 12 (← dropChar? '-' s)
  let (day, s) ← readField? 2 1 31 (← dropChar? '-' s)
  return ({ year, month, day }, s)

/-- Minutes east, when an offset stands here. -/
def readOffset (s : List Char) : Option Int × List Char :=
  let signed (sign : Int) (rest : List Char) : Option (Int × List Char) := do
    let (hour, rest) ← readField? 2 0 23 rest
    let (minute, rest) ← readField? 2 0 59 (← dropChar? ':' rest)
    return (sign * (60 * hour + minute : Nat), rest)
  let found := match s with
    | '+' :: rest => signed 1 rest
    | '-' :: rest => signed (-1) rest
    | c :: rest => if c = 'Z' || c = 'z' then some (0, rest) else none
    | [] => none
  match found with
  | some (o, rest) => (some o, rest)
  | none => (none, s)

def startsTime (c : Char) : Bool := c == 'T' || c == 't' || c == ' '

def readDateTime? (s : List Char) : Option (Except Mistake (Front Moment)) := do
  let (date, rest) ← readDate? s
  let time := match rest with
    | c :: more => if startsTime c then readTime? more else none
    | [] => none
  let found := match time with
    | some (t, rest) =>
      let (offset, rest) := readOffset rest
      (Moment.dateTime date t offset, rest)
    | none => (Moment.date date, rest)
  return if date.isValid then .ok found else .error .malformed

def readScalar (s : List Char) : Except Mistake (Front Value) :=
  match readDateTime? s with
  | some r => r.map fun r => (.moment r.1, r.2)
  | none =>
    match readTime? s with
    | some (t, rest) => .ok (.moment (.time t), rest)
    | none =>
      match readBased? s with
      | some (n, rest) => .ok (.int n, rest)
      | none =>
        match readDecimal? s with
        | some r => r
        | none =>
          match readSpecial? s with
          | some (x, rest) => .ok (.float x, rest)
          | none => .error .malformed

end AsmLens.Toml
