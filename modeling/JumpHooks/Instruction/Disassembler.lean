import JumpHooks.Bitness
import JumpHooks.Instruction.Basic
import JumpHooks.Text.Number

/-!
# Disassemblers

Instructions are read from bytes, and written as text, by a disassembler. Which bytes are
instructions is left to it. What is asked of every disassembler is that an instruction stands
where it was read, takes at least one and at most fifteen of the bytes that are there, and
branches to an address if it is encoded with a distance. What only some results need is asked
for there, by one of the conditions at the end.
-/

namespace JumpHooks

/-- No instruction has more bytes. -/
def Instruction.maxLength : Nat := 15

/-- What reading promises of an instruction, apart from its bytes. -/
structure Placed.WellFormed (p : Placed) : Prop where
  length_pos : 0 < p.length
  length_le : p.length ≤ Instruction.maxLength
  /-- A distance for the only operand makes it a branch target. -/
  target : ∀ {stored w}, p.instruction.form.kinds = [.relative stored w] →
    ∃ a, p.instruction.operands = [.target w a]

structure Disassembler where
  /-- The instruction at the start of `bytes`, which stand at `address`. -/
  decode? : Bitness → (address : UInt64) → (bytes : List UInt8) → Option Placed
  text : Bitness → Instruction → String
  address_eq : ∀ {b address bytes p}, decode? b address bytes = some p → p.address = address
  length_le : ∀ {b address bytes p}, decode? b address bytes = some p →
    p.length ≤ bytes.length
  wellFormed : ∀ {b address bytes p}, decode? b address bytes = some p → p.WellFormed

/-- The line of an instruction in a listing: its address and its text. -/
def Placed.text (d : Disassembler) (bitness : Bitness) (p : Placed) : String :=
  Text.padded 16 (Text.upperHex p.address.toNat) ++ " " ++ d.text bitness p.instruction

namespace Disassembler

/-- An instruction is read again from its own bytes alone. -/
def Rereads (d : Disassembler) : Prop :=
  ∀ ⦃b address bytes p⦄, d.decode? b address bytes = some p →
    d.decode? b address (bytes.take p.length) = some p

/-- An instruction is read in the same way when more bytes follow. -/
def IgnoresRest (d : Disassembler) : Prop :=
  ∀ ⦃b address bytes p⦄, d.decode? b address bytes = some p →
    ∀ more, d.decode? b address (bytes ++ more) = some p

end Disassembler
end JumpHooks
