import AsmLens.CommandLine.Items
import AsmLens.CommandLine.Switch
import AsmLens.FilePath
import AsmLens.Files
import AsmLens.Options.Resolve

namespace AsmLens.CommandLine

inductive CompileKey where
  | optimization
  | language
  | standard
  | emitIr
  | fastMath
  | architecture
  | m32
  | m64
  | extra
  | exceptions
  | rtti
  | editResult
  | verboseAssembly
  | define
  | undef
  | warn
  | includePath
  | showEncoding
  | combinedOutput
  | out
  | input
  | template
  | demangle
  | verbose
  | debugInfo
  | config
  | help
  deriving DecidableEq, Repr

def compileSwitches : List (Switch CompileKey) :=
  [⟨["--opt-level", "-O"], .optimization, none⟩,
    ⟨["--lang", "-l"], .language, none⟩,
    ⟨["--std", "-s"], .standard, none⟩,
    ⟨["--emit-llvm", "-L"], .emitIr, some true⟩,
    ⟨["--fast-math", "-F"], .fastMath, some true⟩,
    ⟨["--no-fast-math"], .fastMath, some false⟩,
    ⟨["--arch", "-a"], .architecture, none⟩,
    ⟨["--m32"], .m32, some true⟩,
    ⟨["--m64"], .m64, some true⟩,
    ⟨["--Xcc", "-X"], .extra, none⟩,
    ⟨["--exceptions", "-e"], .exceptions, some true⟩,
    ⟨["--no-exceptions"], .exceptions, some false⟩,
    ⟨["--rtti", "-r"], .rtti, some true⟩,
    ⟨["--no-rtti"], .rtti, some false⟩,
    ⟨["--edit-result", "-E"], .editResult, some true⟩,
    ⟨["--verbose-asm"], .verboseAssembly, some true⟩,
    ⟨["--no-verbose-asm"], .verboseAssembly, some false⟩,
    ⟨["--define", "-D"], .define, none⟩,
    ⟨["--undef", "-U"], .undef, none⟩,
    ⟨["--warn", "-W"], .warn, none⟩,
    ⟨["--include", "-I"], .includePath, none⟩,
    ⟨["--show-encoding", "-S"], .showEncoding, some true⟩,
    ⟨["--combined-output", "-C"], .combinedOutput, some true⟩,
    ⟨["--out", "-o"], .out, none⟩,
    ⟨["--input", "-i"], .input, none⟩,
    ⟨["--template", "-T"], .template, none⟩,
    ⟨["--demangle"], .demangle, some true⟩,
    ⟨["--no-demangle"], .demangle, some false⟩,
    ⟨["--verbose", "-v"], .verbose, some true⟩,
    ⟨["--debug-info", "-g"], .debugInfo, some true⟩,
    ⟨["--config"], .config, none⟩,
    ⟨["--help", "-h"], .help, some true⟩]

structure CompileRequest where
  language : Language
  standard : Option String
  optimization : Optimization
  architecture : String
  wordSize : Option WordSize
  exceptions : Bool
  rtti : Bool
  fastMath : Bool
  emitIr : Bool
  verboseAssembly : Bool
  showEncoding : Bool
  debugInfo : Bool
  demangle : Bool
  combinedOutput : Bool
  defines : List String
  undefs : List String
  warnings : List String
  includes : List String
  extra : List String
  verbose : Bool
  editResult : Bool
  out : Option String
  input : Option String
  template : Option String
  config : Option String
  deriving Repr

namespace CompileRequest

def choice {α : Type} (ofName? : String → Option α) (fallback : α) : Option String → Except Misuse α
  | none => .ok fallback
  | some s =>
    match ofName? s with
    | some a => .ok a
    | none => .error (.unknownChoice s)

/-- The name is tidied before it is looked up: a file is found under its name with a slash at the end. -/
def checkInput (fs : Files) : Option String → Except Misuse Unit
  | none => .ok ()
  | some path =>
    match fs.find (tidyPath path) with
    | .ok (.file _) => .ok ()
    | _ => .error (.unusableInput path)

def chooseSize (m32 m64 : Bool) : Except Misuse (Option WordSize) :=
  if m32 && m64 then .error .sizesExclude
  else if m64 then .ok (some .bits64)
  else if m32 then .ok (some .bits32)
  else .ok none

def ofParsed (fs : Files) (p : Parsed CompileKey) : Except Misuse CompileRequest := do
  let optimization ← choice Optimization.ofName? .o3 (p.text? .optimization)
  let language ← choice Language.ofName? .cxx (p.text? .language)
  let input ← p.path? .input
  checkInput fs input
  let out ← p.path? .out
  let template ← p.path? .template
  let config ← p.path? .config
  match p.extra with
  | a :: _ => throw (.unexpectedArgument a)
  | [] => pure ()
  let wordSize ← chooseSize (p.flag .m32 false) (p.flag .m64 false)
  return {
    language
    standard := p.text? .standard
    optimization
    architecture := (p.text? .architecture).getD "native"
    wordSize
    exceptions := p.flag .exceptions false
    rtti := p.flag .rtti false
    fastMath := p.flag .fastMath false
    emitIr := p.flag .emitIr false
    verboseAssembly := p.flag .verboseAssembly true
    showEncoding := p.flag .showEncoding false
    debugInfo := p.flag .debugInfo false
    demangle := p.flag .demangle true
    combinedOutput := p.flag .combinedOutput false
    defines := p.texts .define
    undefs := p.texts .undef
    warnings := p.texts .warn
    includes := p.texts .includePath
    extra := p.texts .extra
    verbose := p.flag .verbose false
    editResult := p.flag .editResult false
    out
    input
    template
    config }

def toEntries (r : CompileRequest) (dir : String) : Entries :=
  [("language", .text r.language.name),
    ("standard", match r.standard with
      | none => .null
      | some s => .text s),
    ("optimization_level", .text r.optimization.name),
    ("architecture", .text r.architecture),
    ("forced_word_size", match r.wordSize with
      | none => .null
      | some w => .int w.bits),
    ("exceptions_enabled", .bool r.exceptions),
    ("rtti_enabled", .bool r.rtti),
    ("fast_math", .bool r.fastMath),
    ("emit_ir", .bool r.emitIr),
    ("verbose_assembly", .bool r.verboseAssembly),
    ("show_encoding", .bool r.showEncoding),
    ("debug_info", .bool r.debugInfo),
    ("demangle", .bool r.demangle),
    ("combined_output", .bool r.combinedOutput),
    ("defines", Options.texts (items r.defines)),
    ("undefs", Options.texts (items r.undefs)),
    ("warnings", Options.texts
      (if r.warnings.isEmpty then Options.defaultWarnings else items r.warnings)),
    ("include_directories", Options.texts (Options.defaultIncludes dir ++ items r.includes)),
    ("extra_flags", Options.texts (items r.extra ++ (if r.verbose then ["-v"] else [])))]

def toOptions (r : CompileRequest) (dir : String) : Except Fault Options :=
  (Options.ofEntries dir (r.toEntries dir)).mapError Fault.ofRefusal

end CompileRequest

end AsmLens.CommandLine
