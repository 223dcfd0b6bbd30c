import AsmLens.Flag.Sequence
import AsmLens.Pipeline.Failure
import AsmLens.Text.Words
import AsmLens.Tools

namespace AsmLens

structure Stage where
  name : String
  command : List String
  readsInput : Bool
  failure : Failure.Kind
  deriving DecidableEq, Repr

abbrev Pipeline := List Stage

def Stage.describe (s : Stage) : String := Text.joinWords s.command

namespace Pipeline

def names (p : Pipeline) : List String := p.map (·.name)

def describe (p : Pipeline) : String := " | ".intercalate (p.map Stage.describe)

def compileStage (command : List String) : Stage :=
  { name := "compile", command, readsInput := false, failure := .compiling }

def laterStages (t : Tools) (o : Options) : Pipeline :=
  (if o.showEncoding then
    [{ name := "encode", command := t.encoder, readsInput := true, failure := .encoding }]
  else []) ++
  (if o.shouldDemangle then
    [{ name := "demangle", command := t.demangler, readsInput := true, failure := .demangling }]
  else [])

def ofOptions (t : Tools) (darwin : Bool) (o : Options) (source : String) : Pipeline :=
  compileStage (t.compiler :: (o.arguments darwin ++ [source, "-o", "-"])) :: laterStages t o

def summaryOf (t : Tools) (darwin : Bool) (o : Options) : Pipeline :=
  compileStage (t.compiler :: o.summary darwin) :: laterStages t o

end Pipeline

end AsmLens
