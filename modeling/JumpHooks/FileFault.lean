import JumpHooks.Text.Quoted
import JumpHooks.Text.Record

/-!
# Faults of files

Why an operating system refuses to read a file, and how it reports that.
-/

namespace JumpHooks

inductive FileFault where
  | notFound
  | notDirectory
  | isDirectory
deriving DecidableEq, Repr

namespace FileFault

/-- The number by which the operating system knows the fault. -/
def code : FileFault → Nat
  | notFound => 2
  | notDirectory => 20
  | isDirectory => 21

def name : FileFault → String
  | notFound => "NotFound"
  | notDirectory => "NotADirectory"
  | isDirectory => "IsADirectory"

def text : FileFault → String
  | notFound => "No such file or directory"
  | notDirectory => "Not a directory"
  | isDirectory => "Is a directory"

def record (f : FileFault) : String :=
  Text.record "Os"
    [("code", toString f.code), ("kind", f.name), ("message", Text.quoted f.text)]

end FileFault
end JumpHooks
