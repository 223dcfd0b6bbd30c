import AsmLens.Fault
import AsmLens.Text.Utf8
import AsmLens.Toml.Document
import AsmLens.Tools
import AsmLens.Value.Merge

/-!
Settings out of configuration documents: the document of the user is laid over the one that comes
with the program, and an environment variable may name another compiler.
-/

namespace AsmLens

structure Settings where
  tools : Tools
  verbosity : String
  raw : Entries

namespace Settings

def defaultVerbosity : String := "normal"

def readOutput : Value → Reading String
  | .table es => Entries.readText es "verbosity" defaultVerbosity
  | _ => { value := defaultVerbosity, problems := [{ path := [], cause := .notSection }] }

def readPart {α : Type} (es : Entries) (name : String) (fallback : α) (reader : Value → Reading α) :
    Reading α :=
  match Assoc.get? es name with
  | none => { value := fallback, problems := [] }
  | some v =>
    let r := reader v
    { r with problems := r.problems.map fun p => { p with path := .field name :: p.path } }

def readRaw : Value → Reading Entries
  | .table es => { value := es, problems := [] }
  | _ => { value := [], problems := [{ path := [], cause := .notTable }] }

def standard : Settings := { tools := .standard, verbosity := defaultVerbosity, raw := [] }

def ofValue : Value → Reading Settings
  | .table es =>
    let tools := readPart es "tools" .standard Tools.ofValue
    let output := readPart es "output" defaultVerbosity readOutput
    let raw := readPart es "raw" [] readRaw
    { value := { tools := tools.value, verbosity := output.value, raw := raw.value }
      problems := tools.problems ++ output.problems ++ raw.problems }
  | _ => { value := standard, problems := [{ path := [], cause := .notSection }] }

def part {α : Type} (subject : Subject) (es : Entries) (name : String) (fallback : α)
    (reader : Value → Reading α) : Except Fault α :=
  match Assoc.get? es name with
  | none => .ok fallback
  | some v => (reader v).toExcept.mapError (.invalid subject)

def chooseCompiler (asked : Option String) (t : Tools) : Tools :=
  match asked with
  | none => t
  | some c => if c = "" then t else { t with compiler := c }

def ofDocument (compiler : Option String) (raw : Entries) : Except Fault Settings := do
  let tools ← part .tools raw "tools" .standard Tools.ofValue
  let verbosity ← part .output raw "output" defaultVerbosity readOutput
  return { tools := chooseCompiler compiler tools, verbosity, raw }

def ofLayers (compiler : Option String) (layers : List Entries) : Except Fault Settings :=
  ofDocument compiler (layers.foldl Entries.merge [])

def readDocument (bs : Bytes) : Except Fault Entries :=
  match Text.decode? bs with
  | none => .error .notText
  | some cs =>
    match Toml.parse cs with
    | .ok es => .ok es
    | .error .malformed => .error .badDocument
    | .error .tooManyDigits => .error .tooManyDigits

def builtinText : String :=
  "# Default asmcc configuration. Copy to ~/.config/asmcc/config.toml to override.\n\n" ++
  "[tools]\ncompiler = \"clang\"\nencoder = [\"clang\", \"-cc1as\", \"-show-encoding\"]\n" ++
  "demangler = [\"c++filt\"]\ndefault_editor = \"/usr/bin/nano\"\n\n" ++
  "[output]\nverbosity = \"normal\"\n"

end Settings

end AsmLens
