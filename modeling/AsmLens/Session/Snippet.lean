import AsmLens.Session.Basic

namespace AsmLens.Session

def createSnippet (text ending : String) : Act String := do
  let path := (← get).host.scratch ++ ending
  writeText path text
  modify fun s => { s with snippet := some path }
  return path

def readSnippet (path : String) : Act String := do
  lift ((← get).files.readText path)

def closeSnippet (path : String) : Act Unit := do
  if ← lift ((← get).files.isThere path) then
    let files ← lift ((← get).files.unlink path)
    modify fun s => { s with files }

/-- Works on a new snippet and closes it. How the work ended is passed on, unless closing fails. -/
def withSnippet {α : Type} (text ending : String) (work : String → Act α) : Act α := do
  let path ← createSnippet text ending
  fun s =>
    match work path s with
    | .ok a s => (closeSnippet path >>= fun _ => pure a : Act α) s
    | .error f s => (closeSnippet path >>= fun _ => throw f : Act α) s

end AsmLens.Session
