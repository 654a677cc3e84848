import JumpHooks.Source.Writer
import JumpHooks.Subsystem
import JumpHooks.Text.Lines

/-!
# The generated part of a file

A source file begins with text written by hand. The generated part begins with a marker
between two separator lines and lasts to the end of the file.
-/

namespace JumpHooks
namespace Source

def marker : String :=
  "// GENERATED MEMORY PATCHES"

def separator : String :=
  String.ofList (List.replicate 80 '/')

/-- The beginning of the generated part. -/
def fileHeader : List Item :=
  [.line separator, .line marker, .line separator]

/-- The beginning of the patches of one subsystem. -/
def subsystemHeader (s : Subsystem) : List Item :=
  [.line "", .line separator, .line ("// " ++ s.name), .line separator]

/-- The lines above the marker, without the line just above it, which is the separator that
belongs to the marker. -/
def handWritten? (lines : List String) : Option (List String) :=
  (lines.findIdx? (· == marker)).map fun m => lines.take (m - 1)

/-- Replaces the generated part of a text. -/
def splice (existing : String) (generated : List String) : Except Fault String :=
  match handWritten? (Text.lines existing) with
  | none => .error (.noMarker marker)
  | some kept =>
      let head := "\n".intercalate kept
      let head := if head.isEmpty then head else head ++ "\n"
      .ok (head ++ "\n".intercalate generated ++ "\n")

end Source
end JumpHooks
