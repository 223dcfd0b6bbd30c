import AsmLens.Flag.Spelling
import AsmLens.Options.Basic
import AsmLens.Validation

/-!
Options out of loose data: defaults that depend on the language are filled in, options that
exclude each other are reconciled, and then every field is read.
-/

namespace AsmLens.Options

inductive Refusal where
  | invalid (problems : List Problem)
  | standardNotText
  deriving DecidableEq, Repr

def keepFirst (seen : List (List Char)) : List String → List String
  | [] => []
  | w :: ws =>
    if seen.contains (Flag.warningStem w) then keepFirst seen ws
    else w :: keepFirst (Flag.warningStem w :: seen) ws

def uniqueWarnings (ws : List String) : List String := keepFirst [] ws

def given? (es : Entries) (name : String) : Option Value := (Assoc.get? es name).filter Value.isGiven

def askedLanguage (es : Entries) : Except Refusal Language :=
  match given? es "language" with
  | none => .ok .cxx
  | some (.text s) =>
    match Language.ofName? s with
    | some l => .ok l
    | none => .error (.invalid [{ path := [], cause := .unknownLanguage }])
  | some _ => .error (.invalid [{ path := [], cause := .unknownLanguage }])

def askedStandard (es : Entries) : Except Refusal String :=
  match given? es "standard" with
  | none => .ok ""
  | some (.text s) => .ok s
  | some _ => .error .standardNotText

def readOptimization : Value → Except Cause Optimization
  | .text s =>
    match Optimization.ofName? s with
    | some o => .ok o
    | none => .error .notChoice
  | _ => .error .notChoice

def readWordSize : Value → Except Cause (Option WordSize)
  | .null => .ok none
  | .int n =>
    if n = 32 then .ok (some .bits32)
    else if n = 64 then .ok (some .bits64)
    else if Value.isWord64 n then .error .notWordSize
    else .error .outsideWord
  | .float x =>
    if x.isNat 32 then .ok (some .bits32)
    else if x.isNat 64 then .ok (some .bits64)
    else .error .notWordSize
  | _ => .error .notWordSize

def readFields (dir : String) (language : Language) (standard : String) (es : Entries) :
    Reading Options :=
  let optimization := es.read "optimization_level" .o3 readOptimization
  let architecture := es.readText "architecture" "native"
  let wordSize := es.read "forced_word_size" none readWordSize
  let exceptions := es.readBool "exceptions_enabled" false
  let rtti := es.readBool "rtti_enabled" false
  let fastMath := es.readBool "fast_math" false
  let emitIr := es.readBool "emit_ir" false
  let verboseAssembly := es.readBool "verbose_assembly" true
  let showEncoding := es.readBool "show_encoding" false
  let debugInfo := es.readBool "debug_info" false
  let demangle := es.readBool "demangle" true
  let combinedOutput := es.readBool "combined_output" false
  let defines := es.readTexts "defines" [] .notSequence
  let undefs := es.readTexts "undefs" [] .notSequence
  let warnings := es.readTexts "warnings" defaultWarnings .notSequence
  let includes := es.readTexts "include_directories" (defaultIncludes dir) .notSequence
  let extraFlags := es.readTexts "extra_flags" [] .notSequence
  { value := {
      language
      standard
      optimization := optimization.value
      architecture := architecture.value
      wordSize := wordSize.value
      exceptions := exceptions.value
      rtti := rtti.value
      fastMath := fastMath.value
      emitIr := emitIr.value
      verboseAssembly := verboseAssembly.value
      showEncoding := showEncoding.value
      debugInfo := debugInfo.value
      demangle := demangle.value
      combinedOutput := combinedOutput.value
      defines := defines.value
      undefs := undefs.value
      warnings := uniqueWarnings warnings.value
      includes := includes.value
      extraFlags := extraFlags.value }
    problems :=
      optimization.problems ++ architecture.problems ++ wordSize.problems ++ exceptions.problems ++
      rtti.problems ++ fastMath.problems ++ emitIr.problems ++ verboseAssembly.problems ++
      showEncoding.problems ++ debugInfo.problems ++ demangle.problems ++
      combinedOutput.problems ++ defines.problems ++ undefs.problems ++ warnings.problems ++
      includes.problems ++ extraFlags.problems }

def reconcile (es : Entries) : Entries :=
  if (given? es "emit_ir").isSome then Assoc.put es "show_encoding" (.bool false) else es

def ofEntries (dir : String) (es : Entries) : Except Refusal Options := do
  let language ← askedLanguage es
  let asked ← askedStandard es
  (readFields dir language (language.standard asked) (reconcile es)).toExcept.mapError .invalid

def resolve (dir : String) : Value → Except Refusal Options
  | .table es => ofEntries dir es
  | _ => .error (.invalid [{ path := [], cause := .notSection }])

/-- The options with changes. A change of language alone brings that language's standard. -/
def update (dir : String) (o : Options) (changes : Entries) : Except Refusal Options :=
  let es := Assoc.putAll o.toEntries changes
  ofEntries dir
    (if Assoc.has changes "language" && !Assoc.has changes "standard" then
      Assoc.put es "standard" .null
    else es)

def isPrivate (name : String) : Bool := name.toList.head? = some '_'

/-- Options are not changed in place; private names hold nothing of theirs, so setting one leaves
the options as they are. -/
def assign (o : Options) (name : String) (_ : Value) : Except Refusal Options :=
  if isPrivate name then .ok o
  else .error (.invalid [{ path := [.field name], cause := .readOnly }])

end AsmLens.Options
