import AsmLens.Fault
import AsmLens.Log
import AsmLens.Pipeline.Stage
import AsmLens.Text.Utf8

/-!
Running a pipeline: each stage runs to its end before the next one starts, all that one prints is
all that the next may read, and the first failure ends the run.
-/

namespace AsmLens

inductive Launch where
  | ended (status : Int) (printed : Option Bytes)
  | refused (reason : String)
  deriving DecidableEq, Repr

def Launch.silent : Launch := .ended 0 (some [])

namespace Pipeline

/-- What a run comes to, and the stages that were started. A failed run has no output, whatever its
first stages printed. -/
structure Result where
  success : Bool
  output : Bytes
  failure? : Option Failure
  ran : List String
  deriving DecidableEq, Repr

namespace Result

def completed (ran : List String) (output : Bytes) : Result :=
  { success := true, output, failure? := none, ran }

def failed (ran : List String) (f : Failure) : Result :=
  { success := false, output := [], failure? := some f, ran }

def unwrap (r : Result) : Except Fault Bytes :=
  match r.failure? with
  | some f => .error (.failed f)
  | none => .ok r.output

end Result

structure Start where
  command : List String
  input : Option Bytes
  deriving DecidableEq, Repr

structure Run where
  outcome : Except Fault Result
  starts : List Start
  log : List Record
  launches : List Launch

namespace Run

def after (start : List Start) (log : List Record) (r : Run) : Run :=
  { r with starts := start ++ r.starts, log := log ++ r.log }

end Run

def announce (s : Stage) : Record :=
  { level := .debug, message := "Running " ++ s.name ++ " stage: " ++ s.describe }

def refusal (s : Stage) (program reason : String) : Record :=
  { level := .error, message := "Unable to start " ++ program ++ " (" ++ s.name ++ "): " ++ reason }

def exitNote (s : Stage) (status : Int) : Record :=
  { level := .info, message := s.name ++ " stage exited with status " ++ toString status }

/-- Runs the stages on what the stage before them printed. Words with a null character in them are set
aside: no process can be given one, and the attempt ends the run by an error. -/
def runFrom (data : Bytes) (ran : List String) : Pipeline → List Launch → Run
  | [], launches => { outcome := .ok (.completed ran data), starts := [], log := [], launches }
  | s :: rest, launches =>
    let ran := ran ++ [s.name]
    match s.command with
    | [] => { outcome := .error .noProgram, starts := [], log := [announce s], launches }
    | program :: _ =>
      let start := { command := s.command, input := if s.readsInput then some data else none }
      match launches.headD .silent with
      | .refused reason =>
        { outcome := .ok (.failed ran { kind := s.failure, stage := s.name, status := none })
          starts := [start]
          log := [announce s, refusal s program reason]
          launches := launches.tail }
      | .ended status printed =>
        if status = 0 then
          (runFrom (printed.getD []) ran rest launches.tail).after [start] [announce s]
        else
          { outcome := .ok (.failed ran { kind := s.failure, stage := s.name, status := some status })
            starts := [start]
            log := [announce s, exitNote s status]
            launches := launches.tail }

def run (p : Pipeline) (launches : List Launch) : Run := runFrom [] [] p launches

end Pipeline

end AsmLens
