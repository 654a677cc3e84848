import JumpHooks.Image.Version

/-!
# Readers of module files

Headers, sections and versions are read from a file by a reader of its format. A reader tries one
instruction set at a time, and says by its fault that it should be tried for the other one.
-/

namespace JumpHooks
namespace Image

structure FileReader where
  /-- The headers of a module for one instruction set. -/
  headersOf : Bitness → ByteArray → Except Fault Headers
  /-- The bytes that the file holds for a section. -/
  bytes : ByteArray → SectionHeader → Except Fault (List UInt8)
  /-- The build number of the module, if it has one. -/
  build : ByteArray → Headers → Except Error (Option Nat)

namespace FileReader

/-- Reads the headers for the instruction set that the file is made for. -/
def headers (r : FileReader) (file : ByteArray) : Except Fault Headers :=
  match r.headersOf .x64 file with
  | .error .otherMagic => r.headersOf .x86 file
  | h => h

/-- The reader of the portable executable format. -/
def portable : FileReader where
  headersOf := Image.headersOf
  bytes := fun file s => s.bytes file
  build := Image.build

end FileReader
end Image
end JumpHooks
