import JumpHooks.Instruction.Form
import JumpHooks.Instruction.Operand

/-!
# Instructions

Two instructions are equal when they have the same form and operands, name the same segment
and carry the same lock and repeat byte. Where an instruction stands and how many bytes it
takes belong to its place, not to the instruction, so equality does not see them.
-/

namespace JumpHooks

structure Instruction where
  form : Form
  operands : List Operand
  segment : Option Segment
  lock : Bool
  /-- The repeat byte, unless it is part of the opcode. -/
  repeating : Option Repeat
deriving DecidableEq, Repr

namespace Instruction

/-- An instruction without optional bytes in front of its opcode. -/
def plain (form : Form) (operands : List Operand) : Instruction :=
  ⟨form, operands, none, false, none⟩

/-- The instruction when the next one is at `next`. -/
def place (next : UInt64) (i : Instruction) : Instruction :=
  { i with operands := i.operands.map (Operand.place next) }

/-- The address of the first operand that names one. -/
def address? (i : Instruction) : Option UInt64 :=
  i.operands.findSome? Operand.address?

/-- Where the instruction branches to, if its first operand is a near branch target. -/
def target? (i : Instruction) : Option UInt64 :=
  i.operands.head?.bind Operand.target?

end Instruction

/-- An instruction at its place in the code. -/
structure Placed where
  address : UInt64
  length : Nat
  instruction : Instruction
deriving DecidableEq, Repr

namespace Placed

def isDirectCall (p : Placed) : Bool :=
  p.instruction.form.isDirectCall

def isPadding (p : Placed) : Bool :=
  p.instruction.form.isPadding

end Placed
end JumpHooks
