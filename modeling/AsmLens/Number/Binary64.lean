namespace AsmLens

/-- `finite s m q` is `m * 2 ^ q`, negated if `s`; the sign of a zero is kept. -/
inductive Binary64 where
  | finite (negative : Bool) (m : Nat) (q : Int)
  | infinite (negative : Bool)
  | nan
  deriving DecidableEq, Repr

namespace Binary64

def twoTo (n : Nat) : Nat := Nat.pow 2 n

def tenTo (n : Nat) : Nat := Nat.pow 10 n

def zero (negative : Bool) : Binary64 := .finite negative 0 (-1074)

def roundQuotient (num den : Nat) : Nat :=
  let k := num / den
  let r := num % den
  if 2 * r < den then k
  else if den < 2 * r then k + 1
  else if k % 2 = 0 then k
  else k + 1

def binaryExponent (num den : Nat) : Int :=
  let e : Int := (num.log2 : Int) - (den.log2 : Int)
  if num * twoTo (-e).toNat < den * twoTo e.toNat then e - 1 else e

/-- The quotient `num / den` in 53 binary places, and no finer than `2 ^ -1074`. -/
def ofQuotient (negative : Bool) (num den : Nat) : Binary64 :=
  let q := max (binaryExponent num den - 52) (-1074)
  let m := roundQuotient (num * twoTo (-q).toNat) (den * twoTo q.toNat)
  let (m, q) := if m = twoTo 53 then (twoTo 52, q + 1) else (m, q)
  if 971 < q then .infinite negative else .finite negative m q

def decimalLength (n : Nat) : Nat := (Nat.toDigits 10 n).length

def ofDecimal (negative : Bool) (digits : Nat) (exponent : Int) : Binary64 :=
  let reach := decimalLength digits + exponent
  if digits = 0 || reach < -400 then zero negative
  else if 400 < reach then .infinite negative
  else ofQuotient negative (digits * tenTo exponent.toNat) (tenTo (-exponent).toNat)

def isZero : Binary64 → Bool
  | .finite _ m _ => m == 0
  | _ => false

def isNat (n : Nat) : Binary64 → Bool
  | .finite negative m q =>
    (m * twoTo q.toNat == n * twoTo (-q).toNat) && (!negative || n == 0)
  | _ => false

def isWord64 : Binary64 → Bool
  | .finite _ m q =>
    m * twoTo q.toNat % twoTo (-q).toNat == 0 && m * twoTo q.toNat < twoTo 63 * twoTo (-q).toNat
  | _ => false

end Binary64

end AsmLens
