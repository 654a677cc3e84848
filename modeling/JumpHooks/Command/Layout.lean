import JumpHooks.Builds
import JumpHooks.VariantId

/-!
# Where modules are

Modules are kept in one directory for each build, and in it one for each instruction set.
-/

namespace JumpHooks
namespace Command

/-- A path inside a directory. -/
def join (directory path : String) : String :=
  if directory.isEmpty || directory.toList.getLast? == some '/' then
    directory ++ path
  else
    directory ++ "/" ++ path

def buildDirectory (g : Game) (build : Nat) : String :=
  match g with
  | .crysis => s!"Crysis_{build}"
  | .wars => s!"Crysis_Wars_{build}"
  | .warhead => s!"Crysis_Warhead_{build}"

def bitnessDirectory : Bitness → String
  | .x86 => "Bin32"
  | .x64 => "Bin64"

/-- The file of a subsystem. Warhead has two of them in its executable. -/
def moduleFile (g : Game) (s : Subsystem) : String :=
  match g, s with
  | .warhead, .action => "Crysis64.exe"
  | .warhead, .game => "Crysis64.exe"
  | _, _ => s.fileName

/-- The path of a variant's module, if its build belongs to a known game. -/
def modulePath? (root : String) (id : VariantId) : Option String :=
  (Game.ofBuild? id.build).map fun g =>
    join (join (join root (buildDirectory g id.build)) (bitnessDirectory id.bitness))
      (moduleFile g id.subsystem)

end Command
end JumpHooks
