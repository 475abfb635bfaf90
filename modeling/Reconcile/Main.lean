import Reconcile.Command.Output

namespace Reconcile

def systemError : IO.Error → Nat × String
  | .alreadyExists _ code text | .unsupportedOperation code text | .resourceBusy code text
  | .resourceVanished code text | .hardwareFault code text | .illegalOperation code text
  | .protocolError code text | .timeExpired code text | .noFileOrDirectory _ code text
  | .invalidArgument _ code text | .permissionDenied _ code text
  | .resourceExhausted _ code text | .inappropriateType _ code text
  | .noSuchThing _ code text | .unsatisfiedConstraints code text | .otherError code text
  | .interrupted _ code text => (code.toNat, text)
  | .unexpectedEof => (0, "unexpected end of file")
  | .userError text => (0, text)

def openPath (path : String) : IO (Except FileError Entry) := do
  try
    let content ← IO.FS.readBinFile path
    return .ok (.file content.toList)
  catch cause =>
    match systemError cause with
    | (2, _) => return .error .notFound
    | (20, _) => return .error .notDirectory
    | (21, _) => return .ok .directory
    | (36, _) => return .error .nameTooLong
    | (number, text) => return .error (.system text number)

namespace Command

/-- The paths that a command looks up. Their files are read before the command runs. -/
def paths : Task → List String
  | .run options =>
    options.source :: options.target :: match options.mappings with
      | .memory _ => []
      | .file path => [path]
      | .directory path => (MappingSource.filePath path options.pipeline).toOption.toList
  | .hours _ => []

end Command

def readFiles (paths : List String) : IO Files := do
  let found ← paths.mapM fun path => return (path, ← openPath path)
  return { lookup := fun path => (found.lookup path).getD (.error .notFound) }

end Reconcile

open Reconcile in
def main (arguments : List String) : IO UInt32 := do
  let wanted := match Command.Line.parse arguments with
    | .ok invocation => Command.paths invocation.task
    | .error _ => []
  let output := Command.respond (← readFiles wanted) arguments
  IO.print output.stdout
  for line in output.stderr do IO.eprintln line
  return .ofNat output.code
