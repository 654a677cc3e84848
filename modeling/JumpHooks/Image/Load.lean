import JumpHooks.Code.Variant
import JumpHooks.Image.Reader

/-!
# Loading modules

A module file says itself which instruction set and which build it is. It is decoded only if
that is what the caller expects. Files are read and code is decoded by two libraries, and
loading makes use of nothing else of them.
-/

namespace JumpHooks
namespace Image

/-- The libraries that modules are loaded with. -/
structure Libraries where
  reader : FileReader
  disassembler : Disassembler

/-- What a module file says about itself. -/
structure Info where
  bitness : Bitness
  build : Option Nat
  code : Section

/-- The name of the section with the code. -/
def textName : List UInt8 :=
  ".text".toUTF8.data.toList

/-- Reads the instruction set, the build number and the code of a module file. What a section
has in the file beyond its size in memory is padding and not code. -/
def inspect (r : FileReader) (file : ByteArray) : Except Error Info := do
  let h ← (r.headers file).mapError .image
  match h.sections.find? fun s => s.name == textName with
  | none => .error (.precondition .noTextSection)
  | some text => do
      let raw ← (r.bytes file text).mapError .image
      let build ← r.build file h
      return {
        bitness := h.bitness
        build := build
        code := {
          image := ⟨UInt64.ofNat h.imageBase, UInt64.ofNat h.imageSize⟩
          address := UInt64.ofNat (h.imageBase + text.virtualAddress)
          bytes := raw.take text.virtualSize } }

/-- The build of a module that reports `reported`. One module of build 5767 was published
with its build number unset. -/
def realBuild (subsystem : Subsystem) (reported : Nat) : Nat :=
  if subsystem = .renderD3D10 ∧ reported = 1 then 5767 else reported

/-- Checks that a module is the variant that is expected. -/
def checkIdentity (expected : VariantId) (info : Info) : Except Error Unit :=
  if info.bitness ≠ expected.bitness then
    .error (.precondition (.otherBitness expected info.bitness))
  else
    match info.build with
    | none => .error (.precondition (.noVersion expected))
    | some reported =>
        let build := realBuild expected.subsystem reported
        if build ≠ expected.build then
          .error (.precondition (.otherBuild expected build))
        else
          .ok ()

/-- Decodes a module file as the variant that is expected. -/
def load (l : Libraries) (file : ByteArray) (expected : VariantId) : Except Error Variant := do
  let info ← inspect l.reader file
  checkIdentity expected info
  Variant.decode l.disassembler expected info.code

end Image
end JumpHooks
