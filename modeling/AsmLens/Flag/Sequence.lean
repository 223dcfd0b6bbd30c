import AsmLens.Flag.Basic
import AsmLens.Flag.Spelling
import AsmLens.Options.Basic

namespace AsmLens

def isDarwin (named : Option String) (system : String) : Bool :=
  (match named with
    | none => system
    | some "" => system
    | some p => p) == "Darwin"

namespace Options

def libraryFlags (darwin : Bool) (o : Options) : List String :=
  if !o.isCxx then []
  else if darwin then ["-stdlib=libc++"]
  else ["-stdlib=libstdc++"]

def exceptionFlags (o : Options) : List String :=
  if !o.isCxx then []
  else if o.exceptions then "-fexceptions" :: (if o.isObjC then ["-fobjc-exceptions"] else [])
  else "-fno-exceptions" :: (if o.isObjC then ["-fno-objc-exceptions"] else [])

def rttiFlags (o : Options) : List String :=
  if !o.isCxx then []
  else if o.rtti then ["-frtti"]
  else ["-fno-rtti"]

def sizeFlags (o : Options) : List String :=
  match o.wordSize with
  | none => []
  | some w => ["-m" ++ toString w.bits]

def outputFlags (o : Options) : List String :=
  "-S" :: ((if o.emitIr then ["-emit-llvm"] else []) ++
    (if o.verboseAssembly then ["-Xclang", "-masm-verbose"] else []))

def named (switch : String) (names : List String) : List String :=
  (names.filter fun n => !Text.isBlankText n).map fun n => switch ++ Text.trim n

def allFlags (darwin : Bool) (o : Options) : List Flag :=
  Flag.ofTexts .language ["-x" ++ o.language.name] ++
  Flag.ofTexts .target (("-march=" ++ o.architecture) :: o.sizeFlags) ++
  Flag.ofTexts .output o.outputFlags ++
  Flag.ofTexts .standard (("-std=" ++ o.standard) :: o.libraryFlags darwin) ++
  Flag.ofTexts .optimization ["-O" ++ o.optimization.name] ++
  Flag.ofTexts .exceptions o.exceptionFlags ++
  Flag.ofTexts .rtti o.rttiFlags ++
  Flag.ofTexts .floatingPoint (if o.fastMath then ["-ffast-math"] else []) ++
  Flag.ofTexts .warning (o.warnings.map Flag.toWarning) ++
  Flag.ofTexts .includePath (o.includes.map Flag.toInclude) ++
  Flag.ofTexts .define (named "-D" o.defines) ++
  Flag.ofTexts .undef (named "-U" o.undefs) ++
  Flag.ofTexts .debug (if o.debugInfo then ["-g"] else []) ++
  Flag.ofTexts .extra o.extraFlags

def flags (darwin : Bool) (o : Options) : List Flag := Flag.present (o.allFlags darwin)

def arguments (darwin : Bool) (o : Options) : List String := (o.flags darwin).map (·.text)

def isNoise (argument : String) : Bool :=
  Text.starts ['-', 'W'] argument.toList || Text.starts ['-', 'I'] argument.toList

def summary (darwin : Bool) (o : Options) : List String :=
  (o.arguments darwin).filter fun a => !isNoise a

end Options

end AsmLens
