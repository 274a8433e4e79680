import Verdict.Program

/-!
# The command

The command gives the program the variables of its environment and the files at
the paths that the settings name. Outcomes go to standard output, and failures
to standard error.

Everything that is decided is decided by the program; here it is only looked up
and passed on.
-/

namespace Verdict
namespace Command

/-- The fault of a file that the system refuses to read. -/
def faultOf : IO.Error → FileFault
  | .noFileOrDirectory _ _ _ => .notFound
  | .inappropriateType _ _ _ => .notDirectory
  | .permissionDenied _ code details => .other (details ++ " (os error " ++ toString code ++ ")")
  | error => .other (toString error)

/-- The entry of a directory; what is in a directory inside it is not looked up. -/
def lookInside (entry : IO.FS.DirEntry) : IO (String × FileTree) := do
  if ← entry.path.isDir then return (entry.fileName, .directory [])
  else return (entry.fileName, .file (← IO.FS.readBinFile entry.path))

/-- What the system has at a path: a file, or a directory with the files in it. -/
def look (path : String) : IO (Except FileFault FileTree) := do
  let place := System.mkFilePath [path]
  try
    if ← place.isDir then
      let entries ← (← place.readDir).toList.mapM lookInside
      return .ok (.directory entries)
    else return .ok (.file (← IO.FS.readBinFile place))
  catch error => return .error (faultOf error)

/-- What the system has at several paths. -/
def lookAll (paths : List String) : IO (String → Except FileFault FileTree) := do
  let found ← paths.mapM fun path => return (path, ← look path)
  return fun path => (found.lookup path).getD (.error .notFound)

/-- The variables of the environment, as the system lists them. -/
def environment : IO (List Variable) := do
  match ← look "/proc/self/environ" with
  | .ok (.file block) => return Variable.ofBlock block
  | _ => return []

/-- Runs the program and gives its status. -/
def run : IO UInt32 := do
  let assigned ← environment
  let findDocument ← lookAll (Program.documentPaths assigned)
  let (settings, isFallback) := Program.settings findDocument assigned
  if isFallback then IO.eprintln "Failed to load config, using defaults"
  let find ← lookAll (settings.engine.rulesPath :: settings.engine.factsPath.toList)
  let report := Program.report settings.engine find
  IO.print report.output
  if let some failure := report.failure then IO.eprintln ("error: " ++ failure.message)
  return report.status.toUInt32

end Command
end Verdict

def main : IO UInt32 :=
  Verdict.Command.run
