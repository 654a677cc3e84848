import JumpHooks.Bitness
import JumpHooks.Subsystem

/-!
# Identities of variants

A variant is one subsystem of one build in one instruction set. The build number is a key:
nothing but its order is used.
-/

namespace JumpHooks

structure VariantId where
  subsystem : Subsystem
  build : Nat
  bitness : Bitness
deriving DecidableEq, Repr

namespace VariantId

def text (id : VariantId) : String :=
  s!"{id.subsystem.name} build {id.build} ({id.bitness.text})"

/-- By subsystem, then by build, then 32-bit before 64-bit. -/
def le (a b : VariantId) : Bool :=
  if a.subsystem.rank != b.subsystem.rank then
    a.subsystem.rank < b.subsystem.rank
  else if a.build != b.build then
    a.build < b.build
  else
    a.bitness.bits ≤ b.bitness.bits

/-- The identities in order, each once. -/
def sorted (ids : List VariantId) : List VariantId :=
  (ids.mergeSort le).eraseReps

end VariantId
end JumpHooks
