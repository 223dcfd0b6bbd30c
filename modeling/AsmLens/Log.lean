namespace AsmLens

inductive Level where
  | debug
  | info
  | warning
  | error
  | critical
  deriving DecidableEq, Repr

namespace Level

def all : List Level := [.debug, .info, .warning, .error, .critical]

def name : Level → String
  | .debug => "DEBUG"
  | .info => "INFO"
  | .warning => "WARNING"
  | .error => "ERROR"
  | .critical => "CRITICAL"

def ofName? (s : String) : Option Level := all.find? (·.name == s)

def letter : Level → String
  | .debug => "D"
  | .info => "I"
  | .warning => "W"
  | .error => "E"
  | .critical => "C"

def rank : Level → Nat
  | .debug => 0
  | .info => 1
  | .warning => 2
  | .error => 3
  | .critical => 4

end Level

structure Record where
  level : Level
  message : String
  deriving DecidableEq, Repr

structure Logger where
  chosen : Option Level
  deriving DecidableEq, Repr

namespace Logger

def fresh : Logger := { chosen := none }

def level (l : Logger) : Level := l.chosen.getD .warning

def levelOf (verbosity : String) : Level :=
  if verbosity = "quiet" then .warning
  else if verbosity = "verbose" then .debug
  else .info

def line (l : Logger) (r : Record) : String :=
  if r.level.rank < l.level.rank then ""
  else
    match l.chosen with
    | none => r.message ++ "\n"
    | some _ => "[" ++ r.level.letter ++ "] " ++ r.message ++ "\n"

/-- The first choice stays; what is said about it names the level that was asked for. -/
def configure (l : Logger) (verbosity : String) : Logger × Record :=
  ({ chosen := some (l.chosen.getD (levelOf verbosity)) },
    { level := .debug, message := "Logging configured with level " ++ (levelOf verbosity).name })

end Logger

end AsmLens
