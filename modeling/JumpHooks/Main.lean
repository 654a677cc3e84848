import JumpHooks.Command.Run

/-!
# The command

Reads the files that a run may need, runs it, prints what it prints and replaces what it
replaces.
-/

namespace JumpHooks
namespace Command

/-- The paths of all modules that a run may load. -/
def modulePaths (a : Arguments) : List String :=
  match subsystems a with
  | .error _ => []
  | .ok all =>
      (all.flatMap (variants a.selection)).filterMap (modulePath? a.root)

/-- Why reading a path failed. -/
def faultOf : IO.Error → FileFault
  | .inappropriateType _ code _ =>
      if code.toNat = FileFault.isDirectory.code then .isDirectory else .notDirectory
  | _ => .notFound

def readFile (path : String) : IO (Except FileFault ByteArray) := do
  try
    return .ok (← IO.FS.readBinFile path)
  catch error =>
    return .error (faultOf error)

def readFiles (a : Arguments) : IO Files := do
  let contents ← (modulePaths a ++ a.output.toList).mapM fun path =>
    return (path, ← readFile path)
  return ⟨fun path => (contents.lookup path).getD (.error .notFound)⟩

def finish (report : Report) : IO UInt32 := do
  for line in report.printed do
    IO.println line
  match report.result with
  | .error failure =>
      IO.eprintln ("Error: " ++ failure.record)
      return UInt32.ofNat failure.status
  | .ok none => return 0
  | .ok (some (path, text)) =>
      IO.FS.writeFile path text
      return 0

def execute (a : Arguments) : IO UInt32 := do
  let report := run libraries (← readFiles a) a
  for e in report.events do
    if e.level == "INFO" || (a.verbose && e.level == "DEBUG") then
      IO.eprintln e.text
  finish report

end Command
end JumpHooks

open JumpHooks.Command in
def main (arguments : List String) : IO UInt32 := do
  match request (← IO.getEnv "CRY_DLLS_PATH") arguments with
  | .run a => execute a
  | .version =>
      IO.println version
      return 0
  | .help =>
      IO.println "Usage: memory-patch-gen-cli [OPTIONS]"
      return 0
  | .wrong =>
      IO.eprintln "Usage: memory-patch-gen-cli [OPTIONS]"
      return 2
