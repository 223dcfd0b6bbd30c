import AsmLens.Config.Variables
import AsmLens.Console
import AsmLens.Files
import AsmLens.Log
import AsmLens.Pipeline.Execution

/-!
One session of the program with the world around it: what the world holds, what it will answer, and
all that has happened so far.
-/

namespace AsmLens

inductive Probe where
  | printed (text : Bytes)
  | failed
  deriving DecidableEq, Repr

inductive Edit where
  | ended (status : Int) (content : Option Bytes)
  | refused (reason : String)
  deriving DecidableEq, Repr

def Edit.idle : Edit := .ended 0 none

structure Host where
  directory : String
  system : String
  platform : String
  interpreter : String
  programs : Assoc String String
  versions : Assoc String Probe
  defaultDocument : Option Bytes
  userDocument : Option Bytes
  variableFile : Option Bytes
  console : Console
  scratch : String

inductive Event where
  | run (command : List String) (input source : Option Bytes)
  | edit (command : List String)
  | probe (path : String)
  | prompt (text : String) (reply : Option String)
  deriving DecidableEq, Repr

structure Session where
  host : Host
  environ : Environ
  files : Files
  snippet : Option String
  launches : List Launch
  edits : List Edit
  output : String
  errors : String
  events : List Event
  log : List Record
  logger : Logger

/-- A step of a session: it changes the session and gives a result, or it ends early. -/
abbrev Act (α : Type) := EStateM Fault Session α

namespace Session

def lift {α : Type} : Except Fault α → Act α
  | .ok a => pure a
  | .error f => throw f

def display (r : Record) : Act Unit :=
  modify fun s => { s with errors := s.errors ++ s.logger.line r }

def note (r : Record) : Act Unit :=
  modify fun s => { s with log := s.log ++ [r], errors := s.errors ++ s.logger.line r }

def notes : List Record → Act Unit
  | [] => pure ()
  | r :: rs => do
    note r
    notes rs

def record (e : Event) : Act Unit := modify fun s => { s with events := s.events ++ [e] }

def print (text : String) : Act Unit := modify fun s => { s with output := s.output ++ text }

def printAll : List (Except Markup.Trouble String) → Act Unit
  | [] => pure ()
  | part :: parts => do
    print (← lift (part.mapError .badMarkup))
    printAll parts

def printError (text : String) : Act Unit := modify fun s => { s with errors := s.errors ++ text }

def writeText (name text : String) : Act Unit := do
  let files ← lift ((← get).files.writeText name text)
  modify fun s => { s with files }

def configureLog (verbosity : String) : Act Unit := do
  let (logger, said) := (← get).logger.configure verbosity
  modify fun s => { s with logger }
  display said

def sourceFor (s : Session) (command : List String) : Option Bytes :=
  match s.snippet with
  | none => none
  | some path => if command.contains path then (s.files.read path).toOption else none

def runEvent (s : Session) (start : Pipeline.Start) : Event :=
  .run start.command start.input (s.sourceFor start.command)

def execute (p : Pipeline) : Act Pipeline.Result := do
  let s ← get
  let r := p.run s.launches
  set { s with launches := r.launches, events := s.events ++ r.starts.map s.runEvent }
  notes r.log
  lift r.outcome

end Session

end AsmLens
