import AsmLens.FilePath
import AsmLens.Session.Basic

namespace AsmLens

namespace Template

def factorial : String :=
  "\nuint64_t factorial(uint64_t arg) \x7b\n  if (arg <= 1) return 1;\n" ++
  "  return arg * factorial(arg - 1);\n\x7d\n"

def cxx : String :=
  "#include <cinttypes>\n#include <cmath>\n#include <cstddef>\n#include <cstring>\n" ++
  "#include <climits>\n" ++ factorial

def c : String :=
  "#include <inttypes.h>\n#include <math.h>\n#include <stddef.h>\n#include <string.h>\n" ++
  "#include <limits.h>\n#include <stdbool.h>\n" ++ factorial

def ofLanguage (l : Language) : String := if l.isCxx then cxx else c

def read (fs : Files) (path : String) : Except Fault String :=
  let path := tidyPath path
  match fs.readText path with
  | .ok text => .ok text
  | .error .badPath => .error .badPath
  | .error _ => .error (.unreadableTemplate path)

end Template

namespace Session

def selectTemplate (l : Language) (path : Option String) : Act String := do
  match path with
  | none => return Template.ofLanguage l
  | some path =>
    match Template.read (← get).files path with
    | .ok text => return text
    | .error (.unreadableTemplate path) =>
      let message := ((Fault.unreadableTemplate path).message?).getD ""
      note { level := .warning, message := message ++ ", ignoring custom template" }
      return Template.ofLanguage l
    | .error f => throw f

end Session

end AsmLens
