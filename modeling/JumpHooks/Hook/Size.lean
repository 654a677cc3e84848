import JumpHooks.Hook.Stub
import JumpHooks.Signature.Basic

/-!
# The size of a hook

One stub serves all targets of an instruction set, so all of them have to give up the same
number of bytes. A target gives up the fewest whole instructions that make room for the jump.
-/

namespace JumpHooks
namespace HookSize

/-- The size that the targets so far agree on, with the build of the first of them. -/
structure Agreement where
  size : Nat
  build : Nat

/-- Takes a target into the agreement. -/
def agree (signature : String) (b : Bitness) (required : Nat)
    (agreed : Option Agreement) (m : Match) : Except Error (Option Agreement) :=
  match m.cover required with
  | none =>
      .error (.subroutineTooSmall signature m.variant m.rva m.byteLength required)
  | some size =>
      match agreed with
      | none => .ok (some ⟨size, m.variant.build⟩)
      | some a =>
          if a.size = size then
            .ok (some a)
          else
            .error (.inconsistentSize signature b m.variant size a.size a.build)

/-- The bytes that the hook takes in each target of this instruction set; none if there is
no such target. -/
def common (signature : String) (b : Bitness) (required : Nat) (targets : List Match) :
    Except Error (Option Nat) := do
  let own := targets.filter fun m => m.variant.bitness == b
  let agreed ← own.foldlM (agree signature b required) none
  return agreed.map Agreement.size

/-- The size of the stub: the bare jump if there is no target. -/
def stubSize (signature : String) (b : Bitness) (targets : List Match) :
    Except Error Nat := do
  let size ← common signature b (HookStub.required b) targets
  return size.getD (HookStub.required b)

end HookSize

namespace HookStub

/-- The stub for the targets of one instruction set. -/
def forTargets (signature : String) (b : Bitness) (targets : List Match) :
    Except Error HookStub := do
  assemble b (← HookSize.stubSize signature b targets)

/-- What `forTargets` reports. -/
def events (signature : String) (b : Bitness) (targets : List Match) : List Event :=
  match HookSize.stubSize signature b targets with
  | .error _ => []
  | .ok size => [.hookSize signature b size (required b)]

end HookStub
end JumpHooks
