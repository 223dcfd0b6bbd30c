import AsmLens.Log
import AsmLens.Pipeline.Execution

/-!
Editing and compiling in turn until a compilation succeeds or the user has had enough. There is no
limit to the rounds but the user's replies.
-/

namespace AsmLens

/-- What a loop works with; `confirm` gets the next reply, or none when there are no more. -/
structure Desk (σ : Type) where
  edit : String → EStateM Fault σ Unit
  attempt : String → Options → EStateM Fault σ Pipeline.Result
  confirm : Option String → EStateM Fault σ Bool
  note : Record → EStateM Fault σ Unit

inductive Phase where
  | succeeded
  | aborted
  deriving DecidableEq, Repr

structure Outcome where
  phase : Phase
  output : Option Bytes
  attempts : Nat
  deriving DecidableEq, Repr

namespace Outcome

def succeeded (o : Outcome) : Bool := o.phase == .succeeded

def unwrap (o : Outcome) : Except Fault Bytes :=
  match o.phase, o.output with
  | .succeeded, some bs => .ok bs
  | _, _ => .error .declined

end Outcome

namespace Desk

variable {σ : Type}

def question : String := "Compilation failed, try again?"

def attemptNote (n : Nat) (f? : Option Failure) (what : String) : Record :=
  let reason := (f?.map Failure.message).getD "None"
  { level := .debug
    message := "Attempt " ++ toString n ++ " failed (" ++ reason ++ "), " ++ what }

/-- Attempts from the `n`-th one on. Only a reply can ask for one more: where there is none left, a
yes is as good as closed input. -/
def rounds (d : Desk σ) (path : String) (o : Options) (n : Nat) (replies : List (Option String)) :
    EStateM Fault σ Outcome := do
  let r ← d.attempt path o
  if r.success then
    return { phase := .succeeded, output := some r.output, attempts := n }
  else if ← d.confirm (replies.headD none) then
    match replies with
    | [] => throw .inputClosed
    | _ :: rest =>
      d.note (attemptNote n r.failure? "returning to editor")
      d.edit path
      d.rounds path o (n + 1) rest
  else
    d.note (attemptNote n r.failure? "retry declined")
    return { phase := .aborted, output := none, attempts := n }

def run (d : Desk σ) (path : String) (o : Options) (startEditing : Bool)
    (replies : List (Option String)) : EStateM Fault σ Outcome := do
  if startEditing then d.edit path
  d.rounds path o 1 replies

end Desk

end AsmLens
