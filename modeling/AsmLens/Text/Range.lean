namespace AsmLens.Text

/-- Whether a character lies between a beginning and the end after it; `edges` has them in turn, each
end being the first character outside. -/
def within (edges : List Nat) (c : Char) : Bool :=
  (edges.takeWhile (· ≤ c.toNat)).length % 2 == 1

end AsmLens.Text
