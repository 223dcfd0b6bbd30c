import AsmLens.Validation

namespace AsmLens

structure Tools where
  compiler : String
  encoder : List String
  demangler : List String
  defaultEditor : String
  deriving DecidableEq, Repr

namespace Tools

def standard : Tools :=
  { compiler := "clang"
    encoder := ["clang", "-cc1as", "-show-encoding"]
    demangler := ["c++filt"]
    defaultEditor := "/usr/bin/nano" }

def ofEntries (es : Entries) : Reading Tools :=
  let compiler := es.readText "compiler" standard.compiler
  let encoder := es.readTexts "encoder" standard.encoder .notList
  let demangler := es.readTexts "demangler" standard.demangler .notList
  let editor := es.readText "default_editor" standard.defaultEditor
  { value := {
      compiler := compiler.value
      encoder := encoder.value
      demangler := demangler.value
      defaultEditor := editor.value }
    problems := compiler.problems ++ encoder.problems ++ demangler.problems ++ editor.problems }

def ofValue : Value → Reading Tools
  | .table es => ofEntries es
  | _ => { value := standard, problems := [{ path := [], cause := .notSection }] }

end Tools

end AsmLens
