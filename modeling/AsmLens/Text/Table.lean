import AsmLens.Number.Binary64
import AsmLens.Text.Wrap

namespace AsmLens.Text.Table

def repeated (n : Nat) (c : Char) : List Char := List.replicate n c

def centred (width : Nat) (s : List Char) : List Char :=
  let free := width - room s
  repeated (free / 2) ' ' ++ s ++ repeated (free - free / 2) ' '

def shorten (width : Nat) (s : List Char) : List Char :=
  if room s ≤ width then s else crop (width - 1) s ++ ['…']

def ruleLine (width : Nat) (title : List Char) : List Char :=
  if width ≤ 4 then repeated width '─'
  else
    let middle := ' ' :: (shorten (width - 4) title ++ [' '])
    let free := width - room middle
    repeated (free / 2) '─' ++ middle ++ repeated (free - free / 2) '─'

def textLines : List Char → List (List Char)
  | [] => [[]]
  | c :: s =>
    if endsLine c then [] :: textLines s
    else
      match textLines s with
      | [] => [[c]]
      | l :: ls => (c :: l) :: ls

def cellWidth (page : Nat) (s : List Char) : Nat :=
  min page (((textLines s).map room).foldl max 0 + 2)

def total : List Nat → Nat
  | [] => 0
  | w :: ws => w + total ws

def columnWidths (page : Nat) (rows : List (List (List Char))) : List Nat :=
  rows.foldl (fun widths row => List.zipWith max widths (row.map (cellWidth page)))
    ((rows.headD []).map fun _ => 0)

/-- Takes an excess from the widths that are equal to the widest, in equal shares of at most `most`;
`sharers` of them are left. -/
def takeShares (widest most : Nat) : Nat → Nat → List Nat → List Nat
  | _, _, [] => []
  | excess, sharers, w :: ws =>
    if w = widest then
      let share := min most (Binary64.roundQuotient excess sharers)
      (w - share) :: takeShares widest most (excess - share) (sharers - 1) ws
    else w :: takeShares widest most excess sharers ws

def narrow (page : Nat) : Nat → List Nat → List Nat
  | 0, widths => widths
  | n + 1, widths =>
    let excess := total widths - page
    if excess = 0 then widths
    else
      let widest := widths.foldl max 0
      let next := (widths.filter (· ≠ widest)).foldl max 0
      let most := min excess (widest - next)
      narrow page n (takeShares widest most excess (widths.count widest) widths)

/-- Blanks up to the width, and one more where a joiner at the end of the text hides the first. -/
def padRight (width : Nat) (s : List Char) : List Char :=
  let padded := s ++ repeated (width - room s) ' '
  padded ++ repeated (width - room padded) ' '

def cellLines (width : Nat) (s : List Char) : List (List Char) :=
  if width ≤ 2 then []
  else ((pieces '\n' s).flatMap (wrapLine false (width - 2))).map (shorten (width - 2))

def cellLine (width : Nat) (s : List Char) : List Char :=
  if width ≤ 2 then repeated width ' ' else ' ' :: (padRight (width - 2) s ++ [' '])

def bordered (left between right : Char) (cells : List (List Char)) : List Char :=
  left :: (joinPieces [between] cells ++ [right])

def rowLines (bar : Char) (widths : List Nat) (row : List (List Char)) : List (List Char) :=
  let cells := List.zipWith cellLines widths row
  (List.range ((cells.map List.length).foldl max 1)).map fun i =>
    bordered bar bar bar (List.zipWith (fun w ls => cellLine w (ls.getD i [])) widths cells)

def edge (left between right line : Char) (widths : List Nat) : List Char :=
  bordered left between right (widths.map fun w => repeated w line)

def freeRoom (page columns : Nat) : Nat := page - (columns + 1)

def draw (page : Nat) (title : List Char) (head : List (List Char)) (rows : List (List (List Char))) :
    List (List Char) :=
  let free := freeRoom page head.length
  let asked := columnWidths free (head :: rows)
  let widths := narrow free (total asked) asked
  let top := edge '┏' '┳' '┓' '━' widths
  (wrapLine true top.length title).map (fun l => centred top.length (trimRight l)) ++ [top] ++
    rowLines '┃' widths head ++
    [edge '┡' '╇' '┩' '━' widths] ++ rows.flatMap (rowLines '│' widths) ++
    [edge '└' '┴' '┘' '─' widths]

end AsmLens.Text.Table
