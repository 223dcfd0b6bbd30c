import AsmLens.Pipeline.Stage
import AsmLens.Text.Lines
import AsmLens.Text.Tabs
import AsmLens.Text.Utf8

/-!
What the user sees of a compilation: a line that describes it and the code that came of it, alone or
after the source as one comment.
-/

namespace AsmLens.Listing

def separator : String := "/******* Generated code *********/"

def blockOpen : String := "/*"

def blockClose : String := "*/"

def marker (o : Options) : String :=
  if o.combinedOutput then blockOpen
  else if o.emitIr then ";"
  else "#"

def header (t : Tools) (darwin : Bool) (o : Options) (marker : String) : String :=
  marker ++ " Compiled with `" ++ (Pipeline.summaryOf t darwin o).describe ++ "`\n"

def body (captured : String) : String :=
  if captured = "" then "" else Text.closeLine (Text.expandTabs captured)

def render (t : Tools) (darwin : Bool) (o : Options) (source captured : String) : String :=
  let code := header t darwin o (marker o) ++ body captured
  if o.combinedOutput then
    Text.closeLine source ++ "\n" ++ separator ++ "\n" ++ code ++ "\n" ++ blockClose ++ "\n"
  else code

def renderBytes (t : Tools) (darwin : Bool) (o : Options) (source : String) (captured : Bytes) : String :=
  render t darwin o source (String.ofList (Text.decodeLossy captured))

end AsmLens.Listing
