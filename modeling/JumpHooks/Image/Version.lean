import JumpHooks.Error
import JumpHooks.Image.Headers

/-!
# The version of a module

The build number stands in the version resource: the resource directory leads through a
kind, a name and a language to a block of 16-bit words, whose value holds the product
version. A file in which any step of the way is missing has no build number. A block that
ends where the place of its value has not even begun cannot be read, and is an error.
-/

namespace JumpHooks
namespace Image

/-- The part of the file with the resources: where it starts and ends, and the address that
its data entries are relative to. -/
structure ResourceArea where
  start : Nat
  stop : Nat
  address : Nat

namespace ResourceArea

def size (r : ResourceArea) : Nat :=
  r.stop - r.start

/-- Whether a directory or data entry of `length` bytes may stand at `offset`. -/
def holds (r : ResourceArea) (offset length : Nat) : Bool :=
  offset % 4 == 0 && offset + length ≤ r.size

end ResourceArea

/-- The first section whose loaded range includes an address. -/
def sectionAt? (h : Headers) (address : Nat) : Option SectionHeader :=
  h.sections.find? fun s =>
    s.virtualAddress ≤ address &&
      address < add32 s.virtualAddress (max s.virtualSize s.rawSize)

def resourceArea? (file : ByteArray) (h : Headers) : Option ResourceArea := do
  guard (2 < h.directoryCount)
  let address ← u32? file (h.directories + 16)
  let length ← u32? file (h.directories + 20)
  guard (address ≠ 0)
  let s ← sectionAt? h address
  let (rawStart, rawStop) ← s.rawRange? file
  let start := rawStart + (address - s.virtualAddress)
  guard (start ≤ rawStop)
  return ⟨start, min rawStop (start + length), address⟩

/-- An entry of a resource directory: its name, and where it leads. -/
structure ResourceEntry where
  name : Nat
  offset : Nat

namespace ResourceEntry

/-- The bit that tells directories from data, and texts from numbers. -/
def flag : Nat := 0x80000000

/-- The offset of the directory that the entry leads to. -/
def directory? (x : ResourceEntry) : Option Nat :=
  if flag ≤ x.offset then some (x.offset - flag) else none

/-- The offset of the data entry that the entry leads to. -/
def data? (x : ResourceEntry) : Option Nat :=
  if flag ≤ x.offset then none else some x.offset

end ResourceEntry

/-- The entries of the resource directory at `offset`. -/
def directoryEntries? (file : ByteArray) (r : ResourceArea) (offset : Nat) :
    Option (List ResourceEntry) := do
  guard (r.holds offset 16)
  let named ← u16? file (r.start + offset + 12)
  let numbered ← u16? file (r.start + offset + 14)
  guard (r.holds offset (16 + 8 * (named + numbered)))
  (List.range (named + numbered)).mapM fun i => do
    let place := r.start + offset + 16 + 8 * i
    let name ← u32? file place
    let target ← u32? file (place + 4)
    return ⟨name, target⟩

/-- The directory under a number. -/
def subdirectory? (file : ByteArray) (r : ResourceArea) (offset number : Nat) :
    Option Nat := do
  let entries ← directoryEntries? file r offset
  let entry ← entries.find? fun x => x.name == number
  entry.directory?

/-- The words of the version resource, which is kind 16, name 1, in any language. -/
def versionWords? (file : ByteArray) (r : ResourceArea) : Option (List Nat) := do
  let kind ← subdirectory? file r 0 16
  let name ← subdirectory? file r kind 1
  let languages ← directoryEntries? file r name
  let language ← languages.head?
  let entry ← language.data?
  guard (r.holds entry 16)
  let address ← u32? file (r.start + entry)
  let length ← u32? file (r.start + entry + 4)
  guard (r.address ≤ address)
  let start := r.start + (address - r.address)
  guard (start + length ≤ r.stop)
  guard (start % 4 = 0)
  (List.range (length / 2)).mapM fun i => u16? file (start + 2 * i)

/-- The words in the fixed part of a version. -/
def fixedWords : Nat := 26

/-- A version block: its words, where its value starts, and how long its value is. -/
structure VersionBlock where
  words : List Nat
  start : Nat
  valueLength : Nat
deriving DecidableEq, Repr

namespace VersionBlock

/-- Reads a block: its length and that of the value, a type, a key that a zero ends, and the
value on an even word. -/
def ofWords? (words : List Nat) : Option VersionBlock := do
  let listed ← words[0]?
  let valueLength ← words[1]?
  guard (4 ≤ words.length)
  let length := max 4 (listed / 2)
  guard (length ≤ words.length)
  let block := words.take length
  let keyLength ← (block.drop 3).findIdx? (· == 0)
  return ⟨block, 4 + 2 * ((keyLength + 1) / 2), valueLength / 2⟩

/-- The build in a block whose value is the fixed part of a version. -/
def build? (b : VersionBlock) : Option Nat := do
  guard (b.valueLength = fixedWords)
  guard (b.start + fixedWords ≤ b.words.length)
  b.words[b.start + 10]?

end VersionBlock

/-- The build number of a module, if it has one. -/
def build (file : ByteArray) (h : Headers) : Except Error (Option Nat) :=
  let words := (resourceArea? file h).bind (versionWords? file)
  match words.bind VersionBlock.ofWords? with
  | none => .ok none
  | some b =>
      if b.words.length < b.start then .error .versionCutShort else .ok b.build?

end Image
end JumpHooks
