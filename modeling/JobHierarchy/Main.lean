import JobHierarchy.CommandLine.Session
import JobHierarchy.Network
/-!
# The program

Gathers what a run needs from the system, and prints what it comes to.
-/

open JobHierarchy CommandLine

namespace JobHierarchy.System

def readEnvironment : IO Environment := do
  return {
    url := ← IO.getEnv "JOBTREE_URL"
    user := ← IO.getEnv "JOBTREE_USER"
    token := ← IO.getEnv "JOBTREE_TOKEN"
    pollInterval := ← IO.getEnv "JOBTREE_POLL_INTERVAL_MS"
    timeout := ← IO.getEnv "JOBTREE_TIMEOUT_MS" }

def faultOf : IO.Error → FileFault
  | .noFileOrDirectory .. => .notFound
  | .inappropriateType _ code details =>
    if code = 20 then .notDirectory else if code = 21 then .isDirectory else .other details
  | e => .other (toString e)

def readFile (path : String) : IO (Except FileFault String) := do
  try
    match String.fromUTF8? (← IO.FS.readBinFile path) with
    | some text => return .ok text
    | none => return .error .notText
  catch e => return .error (faultOf e)

/-- The path leads to a directory if the directory itself can be opened in it. -/
def isDirectory (path : String) : IO Bool := do
  try
    let _ ← IO.FS.Handle.mk (path ++ "/.") .read
    return true
  catch _ => return false

/-- The files and directories of these paths as they are now. -/
def lookAt (directories files : List String) : IO FileView := do
  let texts ← files.mapM fun path => return (path, ← readFile path)
  let found ← directories.filterM isDirectory
  return {
    read := fun path => (texts.lookup path).getD (.error .notFound)
    isDirectory := found.contains
    walk := fun _ => [] }

/-- Pauses are made of pieces that the system can take. -/
partial def pause (millis : Nat) : IO Unit := do
  let piece := min millis Network.longestWait
  IO.sleep piece.toUInt32
  if piece < millis then pause (millis - piece)

/-- Events below the level of information are shown only if asked for. -/
def showEvent (verbose : Bool) (event : LogEvent) : IO Unit :=
  if event.level = .debug && !verbose then return ()
  else IO.println event.line

end JobHierarchy.System

open JobHierarchy.System in
def main (words : List String) : IO UInt32 := do
  let environment ← readEnvironment
  let request := Invocation.read environment words
  let (directories, files) := match request with
    | .ok i => i.flags.paths
    | .error _ => ([], [])
  let verbose := match request with
    | .ok i => i.verbose
    | .error _ => false
  let ending ← session {
    report := showEvent verbose
    sleep := pause
    clock := IO.monoMsNow
    files := ← lookAt directories files
    environment
    exchange := Network.exchange
    coloured := ← (← IO.getStdout).isTty } words
  IO.print ending.output
  IO.eprint ending.errors
  return ending.exitCode.toUInt32
