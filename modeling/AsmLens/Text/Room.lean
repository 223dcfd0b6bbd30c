import AsmLens.Text.Width

namespace AsmLens.Text

def joiner : Char := '\u200d'

def selector : Char := '\ufe0f'

/-- The room of what follows; `last` is the last character with a width of its own. A joiner hides
the character after it, and a selector gives the last one another place if it is widenable. -/
def roomAfter (last : Option Char) : List Char → Nat
  | [] => 0
  | c :: s =>
    if c = joiner then
      match s with
      | [] => 0
      | _ :: s => roomAfter last s
    else if c = selector then (if last.any isWidenable then 1 else 0) + roomAfter none s
    else if roomOf c = 0 then roomAfter last s
    else roomOf c + roomAfter (some c) s

def room (s : List Char) : Nat := roomAfter none s

structure Part where
  chars : List Char
  room : Nat
  deriving DecidableEq, Repr

namespace Part

def ofChar (c : Char) : Part := { chars := [c], room := roomOf c }

def add (p : Part) (s : List Char) (more : Nat) : Part :=
  { chars := p.chars ++ s, room := p.room + more }

end Part

def partsAfter (p : Part) (last : Option Char) : List Char → List Part
  | [] => [p]
  | c :: s =>
    if c = joiner then
      match s with
      | [] => [p.add [c] 0]
      | d :: s => partsAfter (p.add [c, d] 0) last s
    else if c = selector then
      if last.any isWidenable then partsAfter (p.add [c] 1) none s
      else partsAfter (p.add [c] 0) last s
    else if roomOf c = 0 then partsAfter (p.add [c] 0) last s
    else p :: partsAfter (.ofChar c) (some c) s

def parts : List Char → List Part
  | [] => []
  | c :: s => partsAfter (.ofChar c) (if roomOf c = 0 then none else some c) s

def fit (width : Nat) : List Part → List Char
  | [] => []
  | p :: ps =>
    if p.room ≤ width then p.chars ++ fit (width - p.room) ps else List.replicate width ' '

def crop (width : Nat) (s : List Char) : List Char :=
  if width = 0 then [] else fit width (parts s)

end AsmLens.Text
