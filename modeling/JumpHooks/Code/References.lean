import JumpHooks.Instruction.Basic
import Std.Data.TreeMap

/-!
# References

Which instructions name which address of the image. A branch target or a memory operand is
a reference if it lies in the image; references are kept by the address relative to the
image base, in the order of the instructions.
-/

namespace JumpHooks

/-- The address range that an image takes when it is loaded. -/
structure ImageRange where
  base : UInt64
  size : UInt64
deriving DecidableEq, Repr

namespace ImageRange

/-- The address behind the image. It is a number like other addresses and wraps around, so
that an image which goes up to the last address, or beyond, ends before it begins. -/
def stop (r : ImageRange) : UInt64 :=
  r.base + r.size

def contains (r : ImageRange) (address : UInt64) : Bool :=
  r.base ≤ address && address < r.stop

/-- Whether `length` bytes at `address` lie in the image. -/
def covers (r : ImageRange) (address : UInt64) (length : Nat) : Bool :=
  r.base ≤ address && address.toNat + length ≤ r.stop.toNat

end ImageRange

/-- The address that an instruction refers to, relative to the image base. -/
def Placed.reference? (image : ImageRange) (p : Placed) : Option UInt64 :=
  match p.instruction.address? with
  | none => none
  | some a => if image.contains a then some (a - image.base) else none

structure References where
  /-- The addresses referred to, in the order of their first reference. -/
  addresses : Array UInt64
  byAddress : Std.TreeMap UInt64 (Array Nat)
  count : Nat

namespace References

def empty : References :=
  ⟨#[], ∅, 0⟩

/-- The indices of the instructions that refer to `rva`, in ascending order. -/
def referrers (r : References) (rva : UInt64) : Array Nat :=
  r.byAddress.getD rva #[]

/-- The indices with one more at the end. -/
def extend (index : Nat) (indices : Option (Array Nat)) : Option (Array Nat) :=
  some ((indices.getD #[]).push index)

def insert (r : References) (rva : UInt64) (index : Nat) : References :=
  match r with
  | ⟨addresses, byAddress, count⟩ =>
      let addresses := if byAddress.contains rva then addresses else addresses.push rva
      ⟨addresses, byAddress.alter rva (extend index), count + 1⟩

/-- Every reference of the instructions, with the index of the instruction. -/
def pairs (image : ImageRange) (instructions : Array Placed) : List (UInt64 × Nat) :=
  instructions.toList.zipIdx.filterMap fun (p, i) => (p.reference? image).map (·, i)

def ofInstructions (image : ImageRange) (instructions : Array Placed) : References :=
  (pairs image instructions).foldl (fun r (rva, i) => r.insert rva i) empty

/-- The number of different addresses. -/
def size (r : References) : Nat :=
  r.addresses.size

def entries (r : References) : List (UInt64 × Array Nat) :=
  r.addresses.toList.map fun rva => (rva, r.referrers rva)

end References
end JumpHooks
