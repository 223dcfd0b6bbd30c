import AsmLens.Text.Lines

namespace AsmLens.CommandLine

def items (values : List String) : List String :=
  values.flatMap fun v => (Text.splitText ',' v).filter fun part => !Text.isBlankText part

theorem items_append (a b : List String) : items (a ++ b) = items a ++ items b := by
  simp [items]

end AsmLens.CommandLine
