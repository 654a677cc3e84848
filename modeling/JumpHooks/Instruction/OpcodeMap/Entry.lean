import JumpHooks.Instruction.Form

/-!
# Entries of the opcode map

What the bytes before an opcode settle about it, what an opcode byte can stand for, and the
shapes that most rows of the map have.
-/

namespace JumpHooks

/-- The bytes in front that can be part of an opcode, and so choose between its meanings. -/
inductive Selector where
  | none
  | narrow
  | f3
  | f2

/-- What the bytes before an opcode have settled about it. -/
structure Mode where
  long : Bool
  /-- The byte for narrow operands is there, whether it has its way or not. -/
  narrow : Bool
  operand : Width
  address : Width
  /-- The opcode's register number continues in a REX byte. -/
  extended : Bool
  repeating : Option Repeat

namespace Mode

/-- A repeat byte is chosen by before the byte for narrow operands is. -/
def selector (m : Mode) : Selector :=
  match m.repeating with
  | some .f2 => .f2
  | some .f3 => .f3
  | none => if m.narrow then .narrow else .none

/-- Operand width of instructions that work on the stack or jump through an operand. -/
def stack (m : Mode) : Width :=
  if m.long then
    if m.operand = .word then .word else .qword
  else
    m.operand

/-- Operand width of near branches, which 64-bit code cannot make narrower. -/
def branch (m : Mode) : Width :=
  if m.long then .qword else m.operand

/-- Operand width of instructions that cannot be made narrower than usual. -/
def whole (m : Mode) : Width :=
  if m.operand = .qword then .qword else .dword

/-- Operand width of instructions that work on full registers only. -/
def native (m : Mode) : Width :=
  if m.long then .qword else .dword

/-- Bytes of an immediate that follows the operand width: never more than four. -/
def stored (w : Width) : Width :=
  if w = .qword then .dword else w

end Mode

structure ModRM where
  mod : Nat
  reg : Nat
  rm : Nat

namespace ModRM

def ofByte (b : UInt8) : ModRM where
  mod := b.toNat / 64
  reg := b.toNat / 8 % 8
  rm := b.toNat % 8

def isRegister (x : ModRM) : Bool :=
  x.mod == 3

/-- The low six bits, which continue an opcode where no operand needs them. -/
def low (x : ModRM) : Nat :=
  8 * x.reg + x.rm

end ModRM

/-- An entry of the opcode map. The last two kinds need the ModRM byte to find their form;
the last one takes it for two register numbers whatever its top bits are, and chooses by the
first one. -/
inductive Entry where
  | undefined
  | plain (form : Form)
  | modRM (choose : ModRM → Option Form)
  | registers (choose : Nat → Option Form)

namespace OpcodeMap

def sized (opcode : Nat) (w : Width) (mnemonic : Mnemonic) (kinds : List Kind) : Form :=
  ⟨none, opcode, none, some w, mnemonic, kinds⟩

def unsized (opcode : Nat) (mnemonic : Mnemonic) (kinds : List Kind) : Form :=
  ⟨none, opcode, none, none, mnemonic, kinds⟩

/-- The form that the repeat byte in front turns the opcode into. -/
def marked (m : Mode) (form : Form) : Form :=
  { form with marker := m.repeating }

def simple (opcode : Nat) (mnemonic : Mnemonic) : Entry :=
  .plain (unsized opcode mnemonic [])

/-- An entry whose ModRM byte holds operands only. -/
def operands (form : Form) : Entry :=
  .modRM fun _ => some form

/-- An entry whose ModRM byte continues the opcode with a digit. -/
def digits (opcode : Nat) (w : Width) (row : Nat → Option (Mnemonic × List Kind)) : Entry :=
  .modRM fun x => (row x.reg).map fun (mnemonic, kinds) =>
    ⟨none, opcode, some x.reg, some w, mnemonic, kinds⟩

/-- An entry that 64-bit code does not have. -/
def compatibility (m : Mode) (e : Entry) : Entry :=
  if m.long then .undefined else e

def pushSegment (m : Mode) (opcode : Nat) (s : Segment) : Entry :=
  .plain (sized opcode m.stack .push [.fixed (.segment s)])

def popSegment (m : Mode) (opcode : Nat) (s : Segment) : Entry :=
  .plain (sized opcode m.stack .pop [.fixed (.segment s)])

/-- Loads of a far pointer into a segment register and a general one. -/
def loadFar (m : Mode) (opcode : Nat) (mnemonic : Mnemonic) : Entry :=
  operands (sized opcode m.operand mnemonic [.reg m.operand, .pointer m.operand])

def jump (m : Mode) (opcode : Nat) (mnemonic : Mnemonic) (distance : Width) : Entry :=
  .plain (sized opcode m.branch mnemonic [.relative distance m.branch])

/-- The width of a full distance: a word only when the target is one. -/
def fullDistance (m : Mode) : Width :=
  Mode.stored m.branch

end OpcodeMap
end JumpHooks
