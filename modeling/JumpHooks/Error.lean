import JumpHooks.FileFault
import JumpHooks.Image.Fault
import JumpHooks.Text.Number
import JumpHooks.Text.Quoted
import JumpHooks.Text.Record
import JumpHooks.VariantId

/-!
# Errors

Every way in which a run can fail, as a cause with the facts that its message states. All
errors end a run: a hook that does not cover each of its variants is never written.
-/

namespace JumpHooks

/-- What a caller failed to see to. -/
inductive Precondition where
  | codeOutsideImage (id : VariantId) (address : UInt64) (length start stop : Nat)
  | noTextSection
  | otherBitness (expected : VariantId) (found : Bitness)
  | noVersion (expected : VariantId)
  | otherBuild (expected : VariantId) (found : Nat)
  | stubTooSmall (bitness : Bitness) (needed available : Nat)
  | caseExists (bitness : Bitness) (build : Nat)
  | otherSubsystem (signature : String) (id : VariantId) (expected : Subsystem)
  | processedTwice (signature : String) (id : VariantId)
  | unknownBuild (build : Nat)
  | stated (text : String)
deriving DecidableEq, Repr

namespace Precondition

def address (n : Nat) : String :=
  Text.padded 16 (Text.hex n)

def text : Precondition → String
  | codeOutsideImage id a length start stop =>
      s!"{id.text}: code at {address a.toNat} ({length} bytes) is outside the image " ++
        s!"{address start}..{address stop}"
  | noTextSection => "image has no .text section"
  | otherBitness expected found => s!"expected {expected.text}, image is {found.text}"
  | noVersion expected => s!"{expected.text}: image has no version resource"
  | otherBuild expected found => s!"expected {expected.text}, image reports build {found}"
  | stubTooSmall bitness needed available =>
      s!"{bitness.text} hook needs {needed} bytes, only {available} available"
  | caseExists bitness build =>
      s!"{bitness.text} build {build} already has a case and cannot be marked unsupported"
  | otherSubsystem signature id expected =>
      s!"{signature}: {id.text} handed to the {expected.name} patch"
  | processedTwice signature id => s!"{signature}: {id.text} processed twice"
  | unknownBuild build => s!"no known game has build {build}"
  | stated text => text

end Precondition

inductive Error where
  | decode (variant : VariantId) (address : UInt64)
  | noMatch (signature : String) (variant : VariantId)
  | ambiguousMatch (signature : String) (variant : VariantId) (rvas : List UInt64)
  | subroutineTooSmall (signature : String) (variant : VariantId) (rva : UInt64)
      (size required : Nat)
  | inconsistentSize (signature : String) (bitness : Bitness) (variant : VariantId)
      (size expected expectedBuild : Nat)
  | precondition (cause : Precondition)
  | image (fault : Image.Fault)
  | unreadable (fault : FileFault)
  | file (text : String)
  /-- An instruction was asked for by an index that no instruction has. -/
  | indexOutOfRange (index count : Nat)
  /-- A rule or a check asked for a place outside the instructions it was given. -/
  | placeOutOfRange
  /-- The version of a module ends before the place of its value. -/
  | versionCutShort
deriving DecidableEq, Repr

namespace Error

/-- Errors that nobody is expected to handle: a place that was asked for is not there. They
stop a run at once. -/
def isAbrupt : Error → Bool
  | indexOutOfRange _ _ => true
  | placeOutOfRange => true
  | versionCutShort => true
  | _ => false

/-- The error of a result, if it stops a run at once. -/
def abrupt? {α : Type} : Except Error α → Option Error
  | .error e => if e.isAbrupt then some e else none
  | .ok _ => none

def message : Error → String
  | decode variant address =>
      s!"{variant.text}: cannot decode instruction at 0x{Text.upperHex address.toNat}"
  | noMatch signature variant => s!"{signature}: no matching subroutine in {variant.text}"
  | ambiguousMatch signature variant rvas =>
      let places := ", ".intercalate (rvas.map fun rva => Text.upperHex rva.toNat)
      s!"{signature}: {rvas.length} matching subroutines in {variant.text} (RVAs [{places}])"
  | subroutineTooSmall signature variant rva size required =>
      s!"{signature}: subroutine at RVA 0x{Text.upperHex rva.toNat} in {variant.text} has " ++
        s!"{size} bytes, hook needs {required}"
  | inconsistentSize signature bitness variant size expected expectedBuild =>
      s!"{signature}: {bitness.text} hook would overwrite {size} bytes in {variant.text}, " ++
        s!"but {expected} bytes in build {expectedBuild}"
  | precondition cause => s!"precondition violated: {cause.text}"
  | image fault => s!"PE error: {fault.text}"
  | unreadable fault => s!"I/O error: {fault.text} (os error {fault.code})"
  | file text => s!"I/O error: {text}"
  | indexOutOfRange index count =>
      s!"instruction index {index} out of range ({count} instructions)"
  | placeOutOfRange => "instruction place out of range"
  | versionCutShort => "version ends before its value"

end Error

namespace Bitness

def name : Bitness → String
  | x86 => "X86"
  | x64 => "X64"

end Bitness

namespace VariantId

def record (id : VariantId) : String :=
  Text.record "VariantId"
    [("subsystem", id.subsystem.name), ("build", toString id.build),
      ("bitness", id.bitness.name)]

end VariantId

namespace Error

/-- The error in the notation of records. -/
def record : Error → String
  | decode variant address =>
      Text.record "Decode"
        [("variant", variant.record), ("address", toString address.toNat)]
  | noMatch signature variant =>
      Text.record "NoMatch"
        [("signature", Text.quoted signature), ("variant", variant.record)]
  | ambiguousMatch signature variant rvas =>
      Text.record "AmbiguousMatch"
        [("signature", Text.quoted signature), ("variant", variant.record),
          ("rvas", Text.listing (rvas.map fun rva => toString rva.toNat))]
  | subroutineTooSmall signature variant rva size required =>
      Text.record "SubroutineTooSmall"
        [("signature", Text.quoted signature), ("variant", variant.record),
          ("rva", toString rva.toNat), ("size", toString size),
          ("required", toString required)]
  | inconsistentSize signature bitness variant size expected expectedBuild =>
      Text.record "InconsistentTargetSize"
        [("signature", Text.quoted signature), ("bitness", bitness.name),
          ("variant", variant.record), ("size", toString size),
          ("expected", toString expected), ("expected_build", toString expectedBuild)]
  | precondition cause => Text.tagged "Precondition" (Text.quoted cause.text)
  | image fault => Text.tagged "Image" fault.name
  | unreadable fault => Text.tagged "Io" fault.record
  | file text => Text.tagged "Io" (Text.quoted text)
  | e => e.message

end Error
end JumpHooks
