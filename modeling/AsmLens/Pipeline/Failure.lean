import AsmLens.Text.Quoted

namespace AsmLens

inductive Failure.Kind where
  | anyStage
  | compiling
  | encoding
  | demangling
  deriving DecidableEq, Repr

structure Failure where
  kind : Failure.Kind
  stage : String
  status : Option Int
  deriving DecidableEq, Repr

namespace Failure

def Kind.name : Kind → String
  | .anyStage => "pipeline-failed"
  | .compiling => "primary-compile-failed"
  | .encoding => "encoding-stage-failed"
  | .demangling => "demangle-stage-failed"

def detail (f : Failure) : String :=
  match f.status with
  | some n => "exit status " ++ toString n
  | none => "could not be started"

def message (f : Failure) : String :=
  f.kind.name ++ ": stage " ++ Text.showQuoted f.stage ++ " " ++ f.detail

end Failure

end AsmLens
