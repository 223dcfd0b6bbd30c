import AsmLens.Text.Lines
import AsmLens.Text.Room
import AsmLens.Text.Tabs

namespace AsmLens.Text

def spacedWords : Nat → List Char → List (List Char)
  | 0, _ => []
  | n + 1, s =>
    let lead := s.takeWhile isBlank
    let rest := s.dropWhile isBlank
    let word := rest.takeWhile fun c => !isBlank c
    let rest := rest.dropWhile fun c => !isBlank c
    if word.isEmpty then []
    else
      (lead ++ word ++ rest.takeWhile isBlank) :: spacedWords n (rest.dropWhile isBlank)

def chop (width filled : Nat) : List Part → List (List Char)
  | [] => [[]]
  | p :: ps =>
    if width < filled + p.room then
      match chop width p.room ps with
      | [] => [[], p.chars]
      | q :: qs => [] :: (p.chars ++ q) :: qs
    else
      match chop width (filled + p.room) ps with
      | [] => [p.chars]
      | q :: qs => (p.chars ++ q) :: qs

def pieceStarts (start : Nat) : List (List Char) → List Nat
  | [] => []
  | p :: ps => (if start = 0 then [] else [start]) ++ pieceStarts (start + p.length) ps

/-- Where lines start, other than the first: `filled` is the room that is taken on the line, and the
words begin at `start`. Without `cuts` a long word goes on a line of its own as it is. -/
def lineStarts (cuts : Bool) (width : Nat) : Nat → Nat → List (List Char) → List Nat
  | _, _, [] => []
  | filled, start, w :: ws =>
    let next := start + w.length
    let needed := room (trimRight w)
    if filled + needed ≤ width then lineStarts cuts width (filled + room w) next ws
    else if width < needed then
      let ps := if cuts then chop width 0 (parts w) else [w]
      pieceStarts start ps ++ lineStarts cuts width (room (ps.getLastD [])) next ws
    else if filled ≠ 0 && start ≠ 0 then start :: lineStarts cuts width (room w) next ws
    else lineStarts cuts width filled next ws

def cutAt (start : Nat) (s : List Char) : List Nat → List (List Char)
  | [] => [s]
  | p :: ps => s.take (p - start) :: cutAt p (s.drop (p - start)) ps

def trimBeyond (width : Nat) (s : List Char) : List Char :=
  let blanks := s.length - (trimRight s).length
  s.take (s.length - min blanks (s.length - width))

def fillRoom (p : List Char) : List Char :=
  let p := p ++ [' ']
  p ++ List.replicate ((tabWidth - room p % tabWidth) % tabWidth) ' '

def wrapLine (cuts : Bool) (width : Nat) (s : List Char) : List (List Char) :=
  let s := expandLine fillRoom s
  (cutAt 0 s (lineStarts cuts width 0 0 (spacedWords (s.length + 1) s))).map (trimBeyond width)

def cropBeyond (width : Nat) (s : List Char) : List Char := if room s ≤ width then s else crop width s

def isShown (c : Char) : Bool :=
  let n := c.toNat
  !(n == 7 || n == 8 || n == 0x0b || n == 0x0c || n == 0x0d)

def shown (s : String) : List Char := s.toList.filter isShown

def wrap (width : Nat) (s : String) : String :=
  let ls := ((pieces '\n' (shown s)).flatMap (wrapLine true width)).map (cropBeyond width)
  String.ofList (ls.flatMap (· ++ ['\n']))

end AsmLens.Text
