import AsmLens.Assoc
import AsmLens.Fault
import AsmLens.Text.Lines
import AsmLens.Text.Utf8

namespace AsmLens

inductive FileNode where
  | folder
  | file (content : Bytes)
  deriving DecidableEq, Repr

/-- Files under the parts of their names; names from the root start with the part `/`. -/
abbrev Files := Assoc (List String) FileNode

namespace Files

def node? (fs : Files) (place : List String) : Option FileNode :=
  match place with
  | [] => some .folder
  | ["/"] => some .folder
  | place => Assoc.get? fs place

def partLimit : Nat := 255

def nameLimit : Nat := 4095

def walk (fs : Files) (place : List String) : List String → Except Fault (List String)
  | [] => .ok place
  | part :: rest =>
    match node? fs place with
    | none => .error .noSuchFile
    | some (.file _) => .error .notFolder
    | some .folder =>
      if partLimit < part.utf8ByteSize then .error .nameTooLong
      else if part = "" || part = "." then walk fs place rest
      else if part = ".." then walk fs (if place = ["/"] then place else place.dropLast) rest
      else walk fs (place ++ [part]) rest

def locate (fs : Files) (name : String) : Except Fault (List String) :=
  if name.toList.contains '\x00' then .error .badPath
  else if name = "" then .error .noSuchFile
  else if nameLimit < name.utf8ByteSize then .error .nameTooLong
  else
    match Text.splitText '/' name with
    | "" :: rest => walk fs ["/"] rest
    | parts => walk fs [] parts

def find (fs : Files) (name : String) : Except Fault FileNode := do
  let place ← locate fs name
  match node? fs place with
  | some n => .ok n
  | none => .error .noSuchFile

def exists? (fs : Files) (name : String) : Bool := (find fs name).toBool

def isThere (fs : Files) (name : String) : Except Fault Bool :=
  match find fs name with
  | .ok _ => .ok true
  | .error .nameTooLong => .error .nameTooLong
  | .error _ => .ok false

def read (fs : Files) (name : String) : Except Fault Bytes := do
  match ← find fs name with
  | .file content => .ok content
  | .folder => .error .isFolder

/-- The text of a file: well-formed UTF-8 with every line end a newline. -/
def readText (fs : Files) (name : String) : Except Fault String := do
  match Text.decode? (← read fs name) with
  | some cs => .ok (String.ofList (Text.unifyLineEnds cs))
  | none => .error .notText

def write (fs : Files) (name : String) (content : Bytes) : Except Fault Files := do
  let place ← locate fs name
  match node? fs place with
  | some .folder => .error .isFolder
  | _ => .ok (Assoc.put fs place (.file content))

def writeText (fs : Files) (name text : String) : Except Fault Files := write fs name (Text.utf8 text)

def remove (fs : Files) (name : String) : Files :=
  match locate fs name with
  | .ok place => Assoc.erase fs place
  | .error _ => fs

def unlink (fs : Files) (name : String) : Except Fault Files := do
  match ← find fs name with
  | .file _ => .ok (remove fs name)
  | .folder => .error .isFolder

def addWithFolders (fs : Files) (place : List String) (n : FileNode) : Files :=
  let above := (List.range (place.length - 1)).map fun i => place.take (i + 1)
  let fs := above.foldl (fun fs p => if Assoc.has fs p then fs else Assoc.put fs p .folder) fs
  Assoc.put fs place n

def changes (before after : Files) : List (List String × Bytes) :=
  after.filterMap fun e =>
    match e with
    | (place, .file content) =>
      if Assoc.get? before place = some (.file content) then none else some (place, content)
    | (_, .folder) => none

end Files

end AsmLens
