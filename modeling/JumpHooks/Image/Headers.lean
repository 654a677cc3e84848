import JumpHooks.Bitness
import JumpHooks.Image.Bytes
import JumpHooks.Image.Fault

/-!
# Headers of module files

A module file begins with a signature and the offset of its headers, which say for which
instruction set it is made, where it is loaded, and where its sections and data directories
are. Checks are made in a fixed order, since the first that fails decides the fault.
-/

namespace JumpHooks
namespace Image

/-- One section: where its bytes are in the file and where they are loaded. -/
structure SectionHeader where
  name : List UInt8
  virtualSize : Nat
  virtualAddress : Nat
  rawSize : Nat
  rawPointer : Nat
deriving DecidableEq, Repr

structure Headers where
  bitness : Bitness
  imageBase : Nat
  imageSize : Nat
  /-- The offset of the data directories, and their number. -/
  directories : Nat
  directoryCount : Nat
  sections : List SectionHeader
deriving DecidableEq, Repr

/-- The mark of the optional header of each instruction set. -/
def magic : Bitness → Nat
  | .x64 => 0x20B
  | .x86 => 0x10B

/-- The bytes of the headers in front of the data directories. -/
def headerSize : Bitness → Nat
  | .x64 => 136
  | .x86 => 120

def orBounds {α : Type} : Option α → Except Fault α
  | some a => .ok a
  | none => .error .bounds

def require (condition : Bool) (fault : Fault) : Except Fault Unit :=
  if condition then .ok () else .error fault

/-- The name of a section is filled up with zeros. -/
def withoutZeros (name : List UInt8) : List UInt8 :=
  (name.reverse.dropWhile (· == 0)).reverse

def sectionHeader (file : ByteArray) (offset : Nat) : Except Fault SectionHeader := do
  let virtualSize ← orBounds (u32? file (offset + 8))
  let virtualAddress ← orBounds (u32? file (offset + 12))
  let rawSize ← orBounds (u32? file (offset + 16))
  let rawPointer ← orBounds (u32? file (offset + 20))
  return {
    name := withoutZeros (range file offset (offset + 8))
    virtualSize := virtualSize
    virtualAddress := virtualAddress
    rawSize := rawSize
    rawPointer := rawPointer }

/-- The offset of the headers. -/
def headerOffset (file : ByteArray) : Except Fault Nat := do
  require (64 ≤ file.size) .bounds
  let mark ← orBounds (u16? file 0)
  require (mark == 0x5A4D) .badMagic
  let e ← orBounds (u32? file 0x3C)
  require (e % 4 == 0) .misaligned
  require (e ≤ 0x01000000) .insanity
  return e

/-- Checks the headers at offset `e` up to the mark of the instruction set. -/
def checkHeaders (b : Bitness) (file : ByteArray) (e : Nat) : Except Fault Unit := do
  require (e + headerSize b ≤ file.size) .bounds
  let mark ← orBounds (u32? file e)
  let found ← orBounds (u16? file (e + 24))
  require (mark == 0x4550 && (found == magic .x86 || found == magic .x64)) .badMagic
  let headers ← orBounds (u32? file (e + 84))
  require (headers ≤ file.size) .bounds
  let imageSize ← orBounds (u32? file (e + 80))
  require (headers ≤ imageSize) .insanity
  require (found == magic b) .otherMagic

def imageBase (b : Bitness) (file : ByteArray) (e : Nat) : Except Fault Nat :=
  match b with
  | .x64 => orBounds (u64? file (e + 48))
  | .x86 => orBounds (u32? file (e + 52))

/-- Reads the headers as those of a module for one instruction set. -/
def headersOf (b : Bitness) (file : ByteArray) : Except Fault Headers := do
  let e ← headerOffset file
  checkHeaders b file e
  let directories := e + headerSize b
  let listed ← orBounds (u32? file (directories - 4))
  let directoryCount := min listed 16
  require (directories + 8 * directoryCount ≤ file.size) .bounds
  let sectionCount ← orBounds (u16? file (e + 6))
  require (sectionCount ≤ 96) .insanity
  let optionalSize ← orBounds (u16? file (e + 20))
  let table := e + 24 + optionalSize
  require (table + 40 * sectionCount ≤ file.size) .bounds
  let imageSize ← orBounds (u32? file (e + 80))
  let imageBase ← imageBase b file e
  let sections ← (List.range sectionCount).mapM fun i => sectionHeader file (table + 40 * i)
  return {
    bitness := b
    imageBase := imageBase
    imageSize := imageSize
    directories := directories
    directoryCount := directoryCount
    sections := sections }

/-- The range of the file that holds a section. -/
def SectionHeader.rawRange? (file : ByteArray) (s : SectionHeader) : Option (Nat × Nat) :=
  let stop := add32 s.rawPointer s.rawSize
  if s.rawPointer ≤ stop ∧ stop ≤ file.size then
    some (s.rawPointer, stop)
  else
    none

/-- The bytes that the file holds for a section. -/
def SectionHeader.bytes (file : ByteArray) (s : SectionHeader) :
    Except Fault (List UInt8) :=
  if s.rawPointer = 0 then
    .error .null
  else
    match s.rawRange? file with
    | none => .error .bounds
    | some (start, stop) => .ok (range file start stop)

end Image
end JumpHooks
