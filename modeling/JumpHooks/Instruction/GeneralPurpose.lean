import JumpHooks.Instruction.Text
import JumpHooks.Proofs.Instruction.Reading

/-!
# The general purpose disassembler

The disassembler of the general purpose and system instructions. Code with floating point or
vector instructions is no code to it.
-/

namespace JumpHooks

def Disassembler.generalPurpose : Disassembler where
  decode? := Placed.decode?
  text := Instruction.text .listing
  address_eq := Placed.decode?_address
  length_le := Placed.decode?_length_le
  wellFormed := Placed.decode?_wellFormed

end JumpHooks
