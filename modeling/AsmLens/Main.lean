import AsmLens.Program

/-!
The program on a real machine. It reads the files that its arguments name and writes back those that
have changed; it starts no process, so that each one counts as one that could not be started.
-/

namespace AsmLens.Machine

def pathsIn (argument : String) : List String :=
  let cs := argument.toList
  [argument, String.ofList (cs.drop 2), String.ofList ((cs.dropWhile (· != '=')).drop 1)].filter
    (· != "")

def placeOf (path : String) : List String :=
  let p := FilePath.ofText path
  if p.root = "" then p.parts else "/" :: p.parts

def nameOf (place : List String) : String :=
  match place with
  | "/" :: parts => "/" ++ "/".intercalate parts
  | parts => "/".intercalate parts

def addPath (fs : Files) (path : String) : IO Files := do
  let here ← IO.currentDir
  let full := here / path
  if ← full.isDir then return fs.addWithFolders (placeOf path) .folder
  else if ← full.pathExists then
    let content ← IO.FS.readBinFile full
    return fs.addWithFolders (placeOf path) (.file content.toList)
  else
    match full.parent with
    | some above =>
      if ← above.isDir then return fs.addWithFolders (placeOf path).dropLast .folder
      else return fs
    | none => return fs

def readIfThere (path : String) : IO (Option Bytes) := do
  let full := (← IO.currentDir) / path
  if ← full.pathExists then return some (← IO.FS.readBinFile full).toList
  else return none

def variableNames : List String := ["VISUAL", "EDITOR", "ASMCC_COMPILER", "COLUMNS", "HOME", "PATH"]

def environ : IO Environ := do
  let found ← variableNames.mapM fun name => do return (name, ← IO.getEnv name)
  return found.filterMap fun kv => kv.2.map (kv.1, ·)

def search (folders : List String) (command : String) : IO (Option String) := do
  let here ← IO.currentDir
  let places := if command.toList.contains '/' then [command] else folders.map (Options.below · command)
  for place in places do
    let full := here / place
    if (← full.pathExists) && !(← full.isDir) then return some place
  return none

def consoleOf (environ : Environ) : Console :=
  { width := ((Assoc.get? environ "COLUMNS").bind String.toNat?).getD 80
    names := .plain }

def session (arguments : List String) (rounds : Nat) : IO Session := do
  let here ← IO.currentDir
  let environ ← environ
  let files ← (arguments.flatMap pathsIn).foldlM addPath
    (Files.addWithFolders [] ["/", "tmp"] .folder)
  let home := (Assoc.get? environ "HOME").getD ""
  let folders := Text.splitText ':' ((Assoc.get? environ "PATH").getD "")
  let words := (Text.splitWords (Editor.choose environ Editor.builtin)).toOption.getD []
  let commands := "clang" :: "c++filt" :: words
  let found ← commands.mapM fun c => do return (c, ← search folders c)
  let programs := found.filterMap fun kv => kv.2.map (kv.1, ·)
  return {
    host := {
      directory := here.toString
      system := if ← (here / "/System/Library").isDir then "Darwin" else "Linux"
      platform := "native"
      interpreter := "none"
      programs
      versions := programs.map fun kv => (kv.2, .failed)
      defaultDocument := some (Text.utf8 Settings.builtinText)
      userDocument := ← readIfThere (Options.below home ".config/asmcc/config.toml")
      variableFile := ← readIfThere ".env"
      console := consoleOf environ
      scratch := "/tmp/asmcc-snippet" }
    environ
    files
    snippet := none
    launches := List.replicate (3 * rounds) (.refused "no processes here")
    edits := List.replicate rounds (.refused "no processes here")
    output := ""
    errors := ""
    events := []
    log := []
    logger := .fresh }

def finish (before after : Session) : IO Unit := do
  for (place, content) in Files.changes before.files after.files do
    IO.FS.writeBinFile (nameOf place) ⟨content.toArray⟩
  IO.print after.output
  IO.eprint after.errors

def run (arguments : List String) : IO UInt32 := do
  let input ← (← IO.getStdin).readToEnd
  let replies := { lines := Text.inputLines input.toList, readable := true }
  let s ← session arguments (replies.lines.length + 2)
  match Program.run arguments replies s with
  | .error m =>
    IO.eprintln m.message
    return 2
  | .ok (.ok code after) =>
    finish s after
    return UInt32.ofNat code
  | .ok (.error f after) =>
    finish s after
    IO.eprintln (f.message?.getD "The run ended early")
    return 1

end AsmLens.Machine

def main (arguments : List String) : IO UInt32 := AsmLens.Machine.run arguments
