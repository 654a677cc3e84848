import JumpHooks.Signature.Pattern

/-!
# Signatures and matches

A signature names a subroutine that has to be hooked, and describes it with a pattern for
each instruction set. A match is what remains of a subroutine when its variant is gone: its
place and the lengths of its instructions.
-/

namespace JumpHooks

structure Signature where
  /-- The name of the patch function that is generated. -/
  name : String
  /-- The documentation of the patch function. -/
  doc : String
  /-- The declaration of the parameter that the hook jumps to. -/
  handler : String
  /-- The subsystems that contain a copy of the subroutine. -/
  subsystems : List Subsystem
  pattern : Bitness → Except Error Pattern
  /-- For variants that are known not to contain the subroutine, the statement that stands
  in place of a hook. -/
  exemption : VariantId → Option String
  /-- How the subroutine is found in a variant; by its pattern, unless the signature has a way
  of its own. The answer is a range of this variant, and depends on nothing but the variant. -/
  find : Variant → Except Error Subroutine := fun v => do
    (← pattern v.id.bitness).findUnique name v
  /-- What `find` reports. -/
  events : Variant → List Event := fun v =>
    match pattern v.id.bitness with
    | .error _ => []
    | .ok p => p.events v

structure Match where
  signature : String
  variant : VariantId
  rva : UInt64
  lengths : List Nat
  /-- The subroutine has a size, so that adding up lengths does not wrap around. -/
  fits : lengths.foldr (· + ·) 0 < UInt64.size
deriving DecidableEq, Repr

namespace Match

def ofSubroutine (signature : String) (v : Variant) (s : Subroutine) : Match where
  signature := signature
  variant := v.id
  rva := v.rvaOf s
  lengths := v.lengths s
  fits := v.byteLength_lt s

/-- The total of the fewest leading lengths that, added to `size`, reach `required`. At
least one length is taken. -/
def coverFrom (required : Nat) : (size : Nat) → List Nat → Option Nat
  | _, [] => none
  | size, n :: lengths =>
      if required ≤ size + n then
        some (size + n)
      else
        coverFrom required (size + n) lengths

/-- The bytes of the fewest leading instructions that take at least `required` bytes. -/
def cover (m : Match) (required : Nat) : Option Nat :=
  coverFrom required 0 m.lengths

def byteLength (m : Match) : Nat :=
  m.lengths.foldr (· + ·) 0

end Match
end JumpHooks
