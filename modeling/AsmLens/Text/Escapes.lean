namespace AsmLens.Text

def escape : Char := Char.ofNat 0x1b

def isParameter (c : Char) : Bool := c == ';' || c == '?' || ('0' ≤ c && c ≤ '9')

def endSequence? (s : List Char) : Option (List Char) :=
  match s with
  | '[' :: rest =>
    match rest.dropWhile isParameter with
    | c :: after => if c.isAlpha then some after else none
    | [] => none
  | _ => none

def stripFrom : Nat → List Char → List Char
  | 0, s => s
  | _, [] => []
  | n + 1, c :: rest =>
    if c = escape then
      match endSequence? rest with
      | some after => stripFrom n after
      | none => c :: stripFrom n rest
    else c :: stripFrom n rest

def stripEscapes (s : String) : String :=
  let cs := s.toList
  String.ofList (stripFrom cs.length cs)

end AsmLens.Text
