import AsmLens.Text.Lines

/-! Texts in which square brackets hold tags that set off what follows them, and colons hold the names
of signs. -/

namespace AsmLens.Markup

/-- What there is to know of the names in a text: `style?` gives one name to all spellings of a style,
`sign?` the sign that stands for a name, and `action` whether the value of an action can be read. A
style may be misspelled so that it ends the reading, which `none` stands for. -/
structure Names where
  style? : List Char → Option (List Char)
  sign? : List Char → Option (List Char)
  action : List Char → Bool

def Names.plain : Names := { style? := some, sign? := fun _ => none, action := fun _ => true }

inductive Trouble where
  | nothingOpen
  | badStyle
  | badAction
  deriving DecidableEq, Repr

structure Tag where
  name : List Char
  value : Option (List Char)
  deriving DecidableEq, Repr

def Tag.ofText (s : List Char) : Tag :=
  { name := s.takeWhile (· != '=')
    value := match s.dropWhile (· != '=') with
      | [] => none
      | _ :: value => some value }

inductive Item where
  | text (s : List Char)
  | tag (t : Tag)
  deriving DecidableEq, Repr

def startsTag (c : Char) : Bool := ('a' ≤ c && c ≤ 'z') || c == '#' || c == '/' || c == '@'

def tag? : List Char → Option (List Char × List Char)
  | [] => none
  | c :: s =>
    match s.dropWhile (· != ']') with
    | [] => none
    | _ :: rest => if startsTag c then some (c :: s.takeWhile (· != ']'), rest) else none

def withoutSlashes (s : List Char) : List Char := (s.reverse.dropWhile (· == '\\')).reverse

def addBracket (s piece : List Char) : List Char :=
  (if s.getLast? = some '\\' then s.dropLast else s) ++ '[' :: piece

/-- The items of a text that begins with `s`; each piece follows an opening bracket. Of the backslashes
before a tag each pair stands for one, and one that is left over makes the tag a text. -/
def items (s : List Char) : List (List Char) → List Item
  | [] => [.text s]
  | piece :: pieces =>
    match tag? piece with
    | none => items (addBracket s piece) pieces
    | some (tag, rest) =>
      let bare := withoutSlashes s
      let slashes := s.length - bare.length
      .text (bare ++ List.replicate (slashes / 2) '\\') ::
        (if slashes % 2 = 1 then .text ('[' :: (tag ++ [']'])) else .tag (.ofText tag)) ::
          items rest pieces

def parse (s : List Char) : List Item :=
  match Text.pieces '[' s with
  | [] => []
  | piece :: pieces => items piece pieces

namespace Names

def withSigns (n : Names) : List (List Char) → List Char
  | [] => []
  | [s] => s
  | [s, t] => s ++ ':' :: t
  | s :: name :: t :: pieces =>
    if name.any Text.isBlank then s ++ ':' :: n.withSigns (name :: t :: pieces)
    else s ++ (n.sign? name).getD (':' :: (name ++ [':'])) ++ n.withSigns (t :: pieces)

def reads (n : Names) (t : Tag) : Bool :=
  match t.name, t.value with
  | '@' :: _, some (c :: value) => n.action (c :: value)
  | _, _ => true

def closes (n : Names) (name : List Char) : Except Trouble (Tag → Bool) :=
  match Text.trimChars name with
  | [] => .ok fun _ => true
  | c :: name =>
    match n.style? (c :: name) with
    | none => .error .badStyle
    | some style => .ok (·.name == style)

def step (n : Names) (opened : List Tag) (t : Tag) : Except Trouble (List Tag) :=
  match t.name with
  | '/' :: name => do
    let fits ← n.closes name
    match opened.find? fits with
    | none => throw .nothingOpen
    | some closed => if n.reads closed then return opened.eraseP fits else throw .badAction
  | name =>
    match n.style? name with
    | none => .error .badStyle
    | some style => .ok ({ t with name := style } :: opened)

def seen (n : Names) (opened : List Tag) : List Item → Except Trouble (List Char)
  | [] => .ok []
  | .text s :: items => (n.seen opened items).map (n.withSigns (Text.pieces ':' s) ++ ·)
  | .tag t :: items =>
    match n.step opened t with
    | .error e => .error e
    | .ok opened => n.seen opened items

def read (n : Names) (s : String) : Except Trouble String :=
  (n.seen [] (parse s.toList)).map String.ofList

end Names

end AsmLens.Markup
