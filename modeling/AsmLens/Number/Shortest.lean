import AsmLens.Number.Binary64

namespace AsmLens.Binary64

/-- A positive number in units of `2 ^ (q - 2)`, with the ends of the interval that rounds to it. -/
structure Interval where
  low : Nat
  value : Nat
  high : Nat
  closed : Bool
  unit : Int

def interval (m : Nat) (q : Int) : Interval :=
  { low := if m = twoTo 52 && -1074 < q then 4 * m - 1 else 4 * m - 2
    value := 4 * m
    high := 4 * m + 2
    closed := m % 2 == 0
    unit := q - 2 }

def decimalExponent (num den : Nat) : Int :=
  if den ≤ num then (decimalLength (num / den) : Int) - 1
  else
    let d := decimalLength (den / num)
    if den ≤ num * tenTo (d - 1) then -((d : Int) - 1) else -(d : Int)

def Interval.holds (i : Interval) (n : Nat) (k : Int) : Bool :=
  let left := n * tenTo k.toNat * twoTo (-i.unit).toNat
  let scale := tenTo (-k).toNat * twoTo i.unit.toNat
  if i.closed then i.low * scale ≤ left && left ≤ i.high * scale
  else i.low * scale < left && left < i.high * scale

def Interval.pick? (i : Interval) (k : Int) : Option Nat :=
  let num := i.value * twoTo i.unit.toNat * tenTo (-k).toNat
  let den := twoTo (-i.unit).toNat * tenTo k.toNat
  let down := num / den
  match i.holds down k, i.holds (down + 1) k with
  | false, false => none
  | true, false => some down
  | false, true => some (down + 1)
  | true, true => some (roundQuotient num den)

def Interval.search (i : Interval) (e : Int) : Nat → Nat → Nat × Int
  | _, 0 => (0, 0)
  | count, fuel + 1 =>
    let k := e - count + 1
    match i.pick? k with
    | some n => (n, k)
    | none => i.search e (count + 1) fuel

def shortest (m : Nat) (q : Int) : Nat × Int :=
  let i := interval m q
  i.search (decimalExponent (i.value * twoTo i.unit.toNat) (twoTo (-i.unit).toNat)) 1 17

def trimZeros (ds : List Char) : List Char := (ds.reverse.dropWhile (· == '0')).reverse

/-- Digits with the point after the first `point` of them: positional from `1e-4` to below `1e16`,
otherwise with an exponent of at least two digits. -/
def layout (ds : List Char) (point : Int) : String :=
  let zeros (n : Nat) := List.replicate n '0'
  if -4 < point && point ≤ 16 then
    if point ≤ 0 then String.ofList ('0' :: '.' :: (zeros (-point).toNat ++ ds))
    else
      let whole := ds.take point.toNat
      let fraction := ds.drop point.toNat
      String.ofList (whole ++ zeros (point.toNat - whole.length) ++ '.' ::
        (if fraction.isEmpty then ['0'] else fraction))
  else
    let e := point - 1
    let sign := if e < 0 then '-' else '+'
    let es := Nat.toDigits 10 e.natAbs
    let es := if es.length < 2 then '0' :: es else es
    let mantissa := match ds with
      | [] => ['0']
      | [d] => [d]
      | d :: more => d :: '.' :: more
    String.ofList (mantissa ++ 'e' :: sign :: es)

def digitsText (m : Nat) (q : Int) : String :=
  if m = 0 then "0.0"
  else
    let (n, k) := shortest m q
    let all := Nat.toDigits 10 n
    layout (trimZeros all) (all.length + k)

def toText : Binary64 → String
  | .finite negative m q => (if negative then "-" else "") ++ digitsText m q
  | .infinite negative => if negative then "-inf" else "inf"
  | .nan => "nan"

end AsmLens.Binary64
