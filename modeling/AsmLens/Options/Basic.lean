import AsmLens.Options.Language
import AsmLens.Value.Basic

namespace AsmLens

structure Options where
  language : Language
  standard : String
  optimization : Optimization
  architecture : String
  wordSize : Option WordSize
  exceptions : Bool
  rtti : Bool
  fastMath : Bool
  emitIr : Bool
  verboseAssembly : Bool
  showEncoding : Bool
  debugInfo : Bool
  demangle : Bool
  combinedOutput : Bool
  defines : List String
  undefs : List String
  warnings : List String
  includes : List String
  extraFlags : List String
  deriving DecidableEq, Repr

namespace Options

def defaultWarnings : List String := ["all", "effc++"]

def systemIncludes : String := "/usr/local/include"

def below (dir name : String) : String :=
  if dir = "" || dir.toList.getLast? = some '/' then dir ++ name else dir ++ "/" ++ name

def defaultIncludes (dir : String) : List String := [dir, below dir "include", systemIncludes]

def includesFrom (named : Option String) (dir : String) : List String :=
  defaultIncludes ((named.filter (· != "")).getD dir)

def isCxx (o : Options) : Bool := o.language.isCxx

def isObjC (o : Options) : Bool := o.language.isObjC

def shouldDemangle (o : Options) : Bool := o.demangle && o.isCxx

def texts (xs : List String) : Value := .array (xs.map .text)

def toEntries (o : Options) : Entries :=
  [("language", .text o.language.name),
    ("standard", .text o.standard),
    ("optimization_level", .text o.optimization.name),
    ("architecture", .text o.architecture),
    ("forced_word_size", match o.wordSize with
      | none => .null
      | some w => .int w.bits),
    ("exceptions_enabled", .bool o.exceptions),
    ("rtti_enabled", .bool o.rtti),
    ("fast_math", .bool o.fastMath),
    ("emit_ir", .bool o.emitIr),
    ("verbose_assembly", .bool o.verboseAssembly),
    ("show_encoding", .bool o.showEncoding),
    ("debug_info", .bool o.debugInfo),
    ("demangle", .bool o.demangle),
    ("combined_output", .bool o.combinedOutput),
    ("defines", texts o.defines),
    ("undefs", texts o.undefs),
    ("warnings", texts o.warnings),
    ("include_directories", texts o.includes),
    ("extra_flags", texts o.extraFlags)]

end Options

end AsmLens
