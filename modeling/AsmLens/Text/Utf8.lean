/-!
UTF-8: characters as bytes, and bytes read back one well-formed or ill-formed part at a time.
-/

namespace AsmLens

abbrev Bytes := List UInt8

namespace Text

def tailByte (n : Nat) : UInt8 := UInt8.ofNat (0x80 + n % 0x40)

def encodeChar (c : Char) : Bytes :=
  let n := c.toNat
  if n < 0x80 then [UInt8.ofNat n]
  else if n < 0x800 then [UInt8.ofNat (0xc0 + n / 0x40), tailByte n]
  else if n < 0x10000 then
    [UInt8.ofNat (0xe0 + n / 0x1000), tailByte (n / 0x40), tailByte n]
  else
    [UInt8.ofNat (0xf0 + n / 0x40000), tailByte (n / 0x1000), tailByte (n / 0x40), tailByte n]

def encode (s : List Char) : Bytes := s.flatMap encodeChar

def utf8 (s : String) : Bytes := encode s.toList

def isTail (b : UInt8) : Bool := 0x80 ≤ b && b ≤ 0xbf

def isSecondOfThree (a b : UInt8) : Bool :=
  if a = 0xe0 then 0xa0 ≤ b && b ≤ 0xbf
  else if a = 0xed then 0x80 ≤ b && b ≤ 0x9f
  else isTail b

def isSecondOfFour (a b : UInt8) : Bool :=
  if a = 0xf0 then 0x90 ≤ b && b ≤ 0xbf
  else if a = 0xf4 then 0x80 ≤ b && b ≤ 0x8f
  else isTail b

def low (b : UInt8) : Nat := b.toNat % 0x40

/-- One entry for each character, and `none` for each maximal part that cannot be one. -/
def scan : Bytes → List (Option Char)
  | [] => []
  | a :: rest =>
    if a < 0x80 then some (Char.ofNat a.toNat) :: scan rest
    else if 0xc2 ≤ a && a ≤ 0xdf then
      match rest with
      | [] => [none]
      | b :: more =>
        if isTail b then some (Char.ofNat (a.toNat % 0x20 * 0x40 + low b)) :: scan more
        else none :: scan (b :: more)
    else if 0xe0 ≤ a && a ≤ 0xef then
      match rest with
      | [] => [none]
      | b :: more =>
        if isSecondOfThree a b then
          match more with
          | [] => [none]
          | c :: more =>
            if isTail c then
              some (Char.ofNat (a.toNat % 0x10 * 0x1000 + low b * 0x40 + low c)) :: scan more
            else none :: scan (c :: more)
        else none :: scan (b :: more)
    else if 0xf0 ≤ a && a ≤ 0xf4 then
      match rest with
      | [] => [none]
      | b :: more =>
        if isSecondOfFour a b then
          match more with
          | [] => [none]
          | c :: more =>
            if isTail c then
              match more with
              | [] => [none]
              | d :: more =>
                if isTail d then
                  some (Char.ofNat
                    (a.toNat % 8 * 0x40000 + low b * 0x1000 + low c * 0x40 + low d)) :: scan more
                else none :: scan (d :: more)
            else none :: scan (c :: more)
        else none :: scan (b :: more)
    else none :: scan rest

def replacement : Char := Char.ofNat 0xfffd

def decode? (bs : Bytes) : Option (List Char) := (scan bs).mapM id

def decodeLossy (bs : Bytes) : List Char := (scan bs).map (·.getD replacement)

end Text

end AsmLens
