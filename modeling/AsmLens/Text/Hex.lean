namespace AsmLens.Text

def hexDigit (n : Nat) : Char :=
  if n < 10 then Char.ofNat (48 + n) else Char.ofNat (87 + n)

def hexDigits (width n : Nat) : List Char :=
  match width with
  | 0 => []
  | w + 1 => hexDigits w (n / 16) ++ [hexDigit (n % 16)]

def hexDigitValue? (c : Char) : Option Nat :=
  if '0' ≤ c && c ≤ '9' then some (c.toNat - 48)
  else if 'a' ≤ c && c ≤ 'f' then some (c.toNat - 87)
  else if 'A' ≤ c && c ≤ 'F' then some (c.toNat - 55)
  else none

def hexValue? (ds : List Char) : Option Nat :=
  ds.foldl (fun acc c => do return 16 * (← acc) + (← hexDigitValue? c)) (some 0)

def readHex? (width : Nat) (s : List Char) : Option (Nat × List Char) :=
  if s.length < width then none
  else (hexValue? (s.take width)).map (·, s.drop width)

def isHexDigit (c : Char) : Bool := (hexDigitValue? c).isSome

theorem hexDigits_length (width n : Nat) : (hexDigits width n).length = width := by
  induction width generalizing n with
  | zero => rfl
  | succ w ih => simp [hexDigits, ih]

theorem hexDigitValue?_hexDigit {n : Nat} (h : n < 16) : hexDigitValue? (hexDigit n) = some n := by
  revert n
  decide

theorem hexValue?_hexDigits {width n : Nat} (h : n < Nat.pow 16 width) :
    hexValue? (hexDigits width n) = some n := by
  induction width generalizing n with
  | zero =>
    have hn : n = 0 := Nat.lt_one_iff.mp h
    simp [hexDigits, hexValue?, hn]
  | succ w ih =>
    have hn : n < Nat.pow 16 w * 16 := h
    have ih' := ih (Nat.div_lt_of_lt_mul (Nat.mul_comm _ 16 ▸ hn))
    simp only [hexValue?] at ih'
    simp only [hexDigits, hexValue?, List.foldl_append, ih', List.foldl_cons, List.foldl_nil,
      hexDigitValue?_hexDigit (Nat.mod_lt n (by decide : 0 < 16))]
    simp only [bind, Option.bind, pure]
    congr 1
    omega

theorem readHex?_hexDigits {width n : Nat} (h : n < Nat.pow 16 width) (rest : List Char) :
    readHex? width (hexDigits width n ++ rest) = some (n, rest) := by
  have hl := hexDigits_length width n
  simp [readHex?, hl, hexValue?_hexDigits h]

end AsmLens.Text
