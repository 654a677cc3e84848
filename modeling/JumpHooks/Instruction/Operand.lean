import JumpHooks.Instruction.Register

/-!
# Operands

An operand is first read relative to the end of its instruction, and then placed: branch
targets and operands addressed from the instruction pointer get the address of the next
instruction added. Nothing else about an operand depends on where the code stands.
-/

namespace JumpHooks

/-- How many bytes the displacement of a memory operand takes in the encoding. -/
inductive DisplacementSize where
  | none
  | byte
  | full
deriving DecidableEq, Repr

/-- A memory operand. The displacement is extended and cut to the width of the address. -/
structure Memory where
  address : Width
  base : Option Register
  index : Option Register
  scale : Nat
  displacement : UInt64
  displacementSize : DisplacementSize
deriving DecidableEq, Repr

namespace Memory

def isRelative (m : Memory) : Bool :=
  match m.base with
  | some (.instructionPointer _) => true
  | _ => false

/-- The operand when the next instruction is at `next`. -/
def place (next : UInt64) (m : Memory) : Memory :=
  if m.isRelative then
    { m with displacement := m.address.truncate (m.displacement + next) }
  else
    m

/-- The segment that is meant when the code names none. -/
def defaultSegment (m : Memory) : Segment :=
  match m.base with
  | some (.general _ 4) => .ss
  | some (.general _ 5) => .ss
  | _ => .ds

end Memory

/-- An operand of an instruction. Immediates are unsigned numbers of the operand's width;
`source` and `destination` are the memory operands of string instructions. What else the
instructions outside the general purpose set say of their operands, such as masks and
rounding, is known by its text. -/
inductive Operand where
  | register (r : Register)
  | immediate (value : UInt64)
  | memory (m : Memory)
  | target (width : Width) (address : UInt64)
  | far (width : Width) (selector : UInt64) (offset : UInt64)
  | source (address : Width)
  | destination (address : Width)
  | other (text : String)
deriving DecidableEq, Repr

namespace Operand

/-- The operand when the next instruction is at `next`. -/
def place (next : UInt64) : Operand → Operand
  | memory m => memory (m.place next)
  | target w distance => target w (w.truncate (next + distance))
  | o => o

def isMemory : Operand → Bool
  | memory _ => true
  | _ => false

/-- The segment that is meant when the code names none, for memory that can be elsewhere. -/
def defaultSegment? : Operand → Option Segment
  | memory m => some m.defaultSegment
  | source _ => some .ds
  | _ => none

/-- The width of the address of memory that is named by a displacement or by registers. -/
def addressWidth? : Operand → Option Width
  | memory m => some m.address
  | _ => none

def isRegister : Operand → Bool
  | register _ => true
  | _ => false

/-- The address that a near branch goes to. -/
def target? : Operand → Option UInt64
  | target _ a => some a
  | _ => none

/-- The address named by a near branch or by a memory operand. A memory operand counts by
its displacement alone. -/
def address? : Operand → Option UInt64
  | target _ a => some a
  | memory m => some m.displacement
  | _ => none

end Operand
end JumpHooks
