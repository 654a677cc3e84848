/-!
# Bitness

The two instruction sets that modules are compiled for. The 32-bit one comes first in the
order of identities, the 64-bit one first where hooks are listed.
-/

namespace JumpHooks

inductive Bitness where
  | x86
  | x64
deriving DecidableEq, Repr

namespace Bitness

def bits : Bitness → Nat
  | x86 => 32
  | x64 => 64

def is64Bit : Bitness → Bool
  | x86 => false
  | x64 => true

def text (b : Bitness) : String :=
  toString b.bits ++ "-bit"

/-- Both, in the order in which hooks are listed. -/
def hookOrder : List Bitness :=
  [x64, x86]

end Bitness
end JumpHooks
