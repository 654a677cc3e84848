/-!
# Numbers in files

Little-endian numbers and ranges of a file. Reading past its end has no result.
-/

namespace JumpHooks
namespace Image

/-- The number stored in `count` bytes from `offset` on. -/
def number? (file : ByteArray) (offset : Nat) : (count : Nat) → Option Nat
  | 0 => some 0
  | count + 1 => do
      let low ← file[offset]?
      let high ← number? file (offset + 1) count
      return low.toNat + 256 * high

def u16? (file : ByteArray) (offset : Nat) : Option Nat :=
  number? file offset 2

def u32? (file : ByteArray) (offset : Nat) : Option Nat :=
  number? file offset 4

def u64? (file : ByteArray) (offset : Nat) : Option Nat :=
  number? file offset 8

/-- The bytes from `start` up to `stop`. -/
def range (file : ByteArray) (start stop : Nat) : List UInt8 :=
  (file.extract start stop).data.toList

/-- Addition as 32-bit fields of a file are added. -/
def add32 (a b : Nat) : Nat :=
  (a + b) % 0x100000000

end Image
end JumpHooks
