/-!
# Faults of module files

What can be wrong with a file that is read as a module.
-/

namespace JumpHooks
namespace Image

inductive Fault where
  | null
  | bounds
  | zeroFill
  | unmapped
  | misaligned
  | badMagic
  | otherMagic
  | insanity
  | invalid
  | overflow
  | encoding
  | aliasing
deriving DecidableEq, Repr

namespace Fault

def text : Fault → String
  | null => "null address reference"
  | bounds => "bounds check failed"
  | zeroFill => "zero filled data reference"
  | unmapped => "overlay data reference"
  | misaligned => "address misaligned"
  | badMagic => "unknown magic number"
  | otherMagic => "try again with correct parser"
  | insanity => "data insanity"
  | invalid => "invalid data"
  | overflow => "overflow error"
  | encoding => "encoding error"
  | aliasing => "aliasing error"

def name : Fault → String
  | null => "Null"
  | bounds => "Bounds"
  | zeroFill => "ZeroFill"
  | unmapped => "Unmapped"
  | misaligned => "Misaligned"
  | badMagic => "BadMagic"
  | otherMagic => "PeMagic"
  | insanity => "Insanity"
  | invalid => "Invalid"
  | overflow => "Overflow"
  | encoding => "Encoding"
  | aliasing => "Aliasing"

def all : List Fault :=
  [null, bounds, zeroFill, unmapped, misaligned, badMagic, otherMagic, insanity, invalid,
    overflow, encoding, aliasing]

def ofName? (s : String) : Option Fault :=
  all.find? fun f => f.name == s

end Fault
end Image
end JumpHooks
