import JumpHooks.Text.Number
import JumpHooks.VariantId

/-!
# Events

What a run reports while it works. An event is a value with the facts that it states, so a
run that is a pure function can hand its reports over with its result.
-/

namespace JumpHooks

/-- Why a subroutine around an anchor is not a candidate. -/
inductive Rejection where
  | anchor (offset : Nat)
  | tooShort (count : Nat)
  | rule (position offset : Nat)
deriving DecidableEq, Repr

def Rejection.text : Rejection → String
  | anchor offset => s!"anchor at offset {offset}"
  | tooShort count => s!"only {count} instructions"
  | rule position offset => s!"rule {position} failed at offset {offset}"

inductive Event where
  | decoded (id : VariantId) (instructions : Nat) (address : UInt64)
      (references addresses : Nat)
  | candidate (id : VariantId) (rva : UInt64)
  | rejected (id : VariantId) (rva : UInt64) (reason : Rejection)
  | matching (id : VariantId) (signatures : Nat)
  | generating (subsystem : Subsystem) (patches variants : Nat)
  | exempt (signature : String) (id : VariantId)
  | found (signature : String) (id : VariantId) (rva : UInt64)
  | hookSize (signature : String) (bitness : Bitness) (size required : Nat)
deriving DecidableEq, Repr

namespace Event

def level : Event → String
  | candidate .. => "TRACE"
  | rejected .. => "TRACE"
  | exempt .. => "INFO"
  | found .. => "INFO"
  | _ => "DEBUG"

def message : Event → String
  | decoded id n a references addresses =>
      s!"{id.text}: decoded {n} instructions at {Text.padded 16 (Text.hex a.toNat)}, " ++
        s!"{references} xrefs to {addresses} addresses"
  | candidate id rva => s!"{id.text}: candidate at {Text.hex rva.toNat}"
  | rejected id rva reason =>
      s!"{id.text}: rejected {Text.hex rva.toNat}: {reason.text}"
  | matching id n => s!"Matching {n} signatures in {id.text}"
  | generating subsystem patches variants =>
      s!"Generating {patches} {subsystem.name} patches from {variants} variants"
  | exempt signature id => s!"{signature}: {id.text} is exempt"
  | found signature id rva =>
      s!"{signature}: found in {id.text} at RVA {Text.hex rva.toNat}"
  | hookSize signature bitness size required =>
      s!"{signature}: {bitness.text} hook is {size} bytes ({required} required)"

/-- The level and the message of the event. -/
def text (e : Event) : String :=
  e.level ++ " " ++ e.message

end Event
end JumpHooks
