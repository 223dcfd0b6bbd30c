import AsmLens.Toml.Scalar

namespace AsmLens.Toml

/-- Opens the table at a path, making those that are missing, and changes it. With `lists` a path
goes on in the last table of an array. -/
def within? (lists : Bool) (path : Key) (change : Entries → Option Entries) (es : Entries) :
    Option Entries :=
  match path with
  | [] => change es
  | k :: rest =>
    match Assoc.get? es k with
    | none => (within? lists rest change []).map fun sub => Assoc.put es k (.table sub)
    | some (.table sub) =>
      (within? lists rest change sub).map fun sub => Assoc.put es k (.table sub)
    | some (.array items) =>
      match lists, items.getLast? with
      | true, some (.table sub) =>
        (within? lists rest change sub).map fun sub =>
          Assoc.put es k (.array (items.dropLast ++ [.table sub]))
      | _, _ => none
    | some _ => none

def insert? (k : String) (v : Value) (es : Entries) : Option Entries :=
  if Assoc.has es k then none else some (Assoc.put es k v)

def append? (k : String) (es : Entries) : Option Entries :=
  match Assoc.get? es k with
  | none => some (Assoc.put es k (.array [.table []]))
  | some (.array items) => some (Assoc.put es k (.array (items ++ [.table []])))
  | some _ => none

def isContainer : Value → Bool
  | .array _ => true
  | .table _ => true
  | _ => false

def covers (paths : List Key) (path : Key) : Bool := paths.any (·.isPrefixOf path)

def skipFiller : Nat → List Char → Except Mistake (List Char)
  | 0, _ => .error .malformed
  | n + 1, s =>
    match s.dropWhile isSpaceOrNewline with
    | '#' :: rest => do skipFiller n (← skipComment ('#' :: rest))
    | rest => .ok rest

def skipAllFiller (s : List Char) : Except Mistake (List Char) := skipFiller (s.length + 1) s

def orMalformed {α : Type} : Option α → Except Mistake α
  | some a => .ok a
  | none => .error .malformed

def readKeyAndSign (s : List Char) : Except Mistake (Front Key) := do
  let (key, rest) ← readKey s
  match rest with
  | '=' :: rest => return (key, skipSpace rest)
  | _ => .error .malformed

mutual

def readValue : Nat → List Char → Except Mistake (Front Value)
  | 0, _ => .error .malformed
  | n + 1, s => do
    match s with
    | [] => .error .malformed
    | '[' :: rest =>
      match ← skipAllFiller rest with
      | ']' :: rest => return (.array [], rest)
      | rest =>
        let (items, rest) ← readItems n rest
        return (.array items, rest)
    | '\x7b' :: rest =>
      match skipSpace rest with
      | '\x7d' :: rest => return (.table [], rest)
      | rest =>
        let (entries, rest) ← readInline n [] [] rest
        return (.table entries, rest)
    | c :: _ =>
      if c = '"' || c = '\x27' then
        let (t, rest) ← readString s
        return (.text t, rest)
      else if c = 't' then
        return (.bool true, ← orMalformed (Text.drop? ['t', 'r', 'u', 'e'] s))
      else if c = 'f' then
        return (.bool false, ← orMalformed (Text.drop? ['f', 'a', 'l', 's', 'e'] s))
      else readScalar s

def readItems : Nat → List Char → Except Mistake (Front (List Value))
  | 0, _ => .error .malformed
  | n + 1, s => do
    let (v, rest) ← readValue n s
    match ← skipAllFiller rest with
    | ']' :: rest => return ([v], rest)
    | ',' :: rest =>
      match ← skipAllFiller rest with
      | ']' :: rest => return ([v], rest)
      | rest =>
        let (vs, rest) ← readItems n rest
        return (v :: vs, rest)
    | _ => .error .malformed

def readInline : Nat → List Key → Entries → List Char → Except Mistake (Front Entries)
  | 0, _, _, _ => .error .malformed
  | n + 1, closed, es, s => do
    let (key, rest) ← readKeyAndSign s
    let (v, rest) ← readValue n rest
    if covers closed key then .error .malformed
    let es ← orMalformed (within? false key.dropLast (insert? (key.getLastD "") v) es)
    match skipSpace rest with
    | '\x7d' :: rest => return (es, rest)
    | ',' :: rest =>
      readInline n (if isContainer v then key :: closed else closed) es (skipSpace rest)
    | _ => .error .malformed

end

/-- A document read so far: which tables a header has opened, which values take no more entries,
and which tables keys with points have opened since the last header. -/
structure Draft where
  entries : Entries
  opened : List Key
  closed : List Key
  pending : List Key
  header : Key

def Draft.empty : Draft := { entries := [], opened := [], closed := [], pending := [], header := [] }

namespace Draft

def readHeader (brackets : List Char) (s : List Char) : Except Mistake (Front Key) := do
  let (key, rest) ← readKey (skipSpace s)
  return (key, ← orMalformed (Text.drop? brackets rest))

def openTable (d : Draft) (key : Key) : Except Mistake Draft := do
  if d.opened.contains key || covers d.closed key then .error .malformed
  let entries ← orMalformed (within? true key some d.entries)
  return { d with entries, opened := key :: d.opened, header := key }

def openItem (d : Draft) (key : Key) : Except Mistake Draft := do
  if covers d.closed key then .error .malformed
  let entries ← orMalformed (within? true key.dropLast (append? (key.getLastD "")) d.entries)
  return { d with
    entries
    opened := key :: d.opened.filter fun k => !key.isPrefixOf k
    closed := d.closed.filter fun k => !key.isPrefixOf k
    header := key }

def between (key : Key) : List Key := (List.range (key.length - 1)).map fun i => key.take (i + 1)

def addEntry (d : Draft) (key : Key) (v : Value) : Except Mistake Draft := do
  let through := (between key).map (d.header ++ ·)
  if through.any d.opened.contains then .error .malformed
  if covers d.closed (d.header ++ key.dropLast) then .error .malformed
  let entries ← orMalformed
    (within? true (d.header ++ key.dropLast) (insert? (key.getLastD "") v) d.entries)
  return { d with
    entries
    pending := through ++ d.pending
    closed := if isContainer v then (d.header ++ key) :: d.closed else d.closed }

def settle (d : Draft) : Draft := { d with opened := d.pending ++ d.opened, pending := [] }

def readStatement (d : Draft) (s : List Char) : Except Mistake (Draft × List Char) :=
  match s with
  | '[' :: '[' :: rest => do
    let (key, rest) ← readHeader [']', ']'] rest
    return (← d.settle.openItem key, rest)
  | '[' :: rest => do
    let (key, rest) ← readHeader [']'] rest
    return (← d.settle.openTable key, rest)
  | '#' :: rest => return (d, '#' :: rest)
  | s => do
    let (key, rest) ← readKeyAndSign s
    let (v, rest) ← readValue (2 * rest.length + 2) rest
    return (← d.addEntry key v, rest)

def readAll : Nat → Draft → List Char → Except Mistake Draft
  | 0, _, _ => .error .malformed
  | n + 1, d, s => do
    match skipSpace s with
    | [] => return d
    | '\n' :: rest => readAll n d rest
    | s =>
      let (d, rest) ← d.readStatement s
      match ← skipComment (skipSpace rest) with
      | [] => return d
      | '\n' :: rest => readAll n d rest
      | _ => .error .malformed

end Draft

def unifyNewlines : List Char → List Char
  | [] => []
  | '\r' :: '\n' :: rest => '\n' :: unifyNewlines rest
  | c :: rest => c :: unifyNewlines rest

def parse (s : List Char) : Except Mistake Entries := do
  let s := unifyNewlines s
  return (← Draft.readAll (s.length + 1) .empty s).entries

end AsmLens.Toml
