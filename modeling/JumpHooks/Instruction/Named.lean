import JumpHooks.Instruction.Basic
import JumpHooks.Bitness

/-!
# Named instructions

The forms and instructions that signatures look for and that hooks are made of.
-/

namespace JumpHooks

namespace Bitness

/-- The width of pointers, and of the target of a near branch. -/
def pointer : Bitness → Width
  | x86 => .dword
  | x64 => .qword

end Bitness

namespace Form

def sized (opcode : Nat) (digit : Option Nat) (w : Width) (mnemonic : Mnemonic)
    (kinds : List Kind) : Form :=
  ⟨none, opcode, digit, some w, mnemonic, kinds⟩

/-- `mov r, imm` with an immediate of full width. -/
def moveImmediate (w : Width) : Form :=
  sized 0xB8 none w .mov [.opcode w, .immediate w w]

/-- `mov r/m, r`. -/
def store (w : Width) : Form :=
  sized 0x89 none w .mov [.rm w, .reg w]

/-- `mov r, r/m`. -/
def load (w : Width) : Form :=
  sized 0x8B none w .mov [.reg w, .rm w]

def test (w : Width) : Form :=
  sized 0x85 none w .test [.rm w, .reg w]

/-- `sub r, r/m`. -/
def subtract (w : Width) : Form :=
  sized 0x2B none w .sub [.reg w, .rm w]

def push (w : Width) : Form :=
  sized 0x50 none w .push [.opcode w]

/-- `cmp r/m, imm` with an immediate of one byte. -/
def compareByte (w : Width) : Form :=
  sized 0x83 (some 7) w .cmp [.rm w, .immediate .byte w]

/-- Near call with a distance of full width. -/
def directCall (b : Bitness) : Form :=
  sized 0xE8 none b.pointer .call [.relative .dword b.pointer]

/-- Jump if equal with a distance of one byte. -/
def shortJumpEqual (b : Bitness) : Form :=
  sized 0x74 none b.pointer (.j .e) [.relative .byte b.pointer]

/-- Near jump through a register or memory. -/
def indirectJump (w : Width) : Form :=
  sized 0xFF (some 4) w .jmp [.rm w]

def nop : Form :=
  sized 0x90 none .dword .nop []

end Form

namespace Instruction

def moveImmediate (w : Width) (r : Register) (value : UInt64) : Instruction :=
  plain (.moveImmediate w) [.register r, .immediate value]

def testSelf (w : Width) (r : Register) : Instruction :=
  plain (.test w) [.register r, .register r]

/-- `mov [rsp+d], r` with a displacement of one byte. -/
def spill (d : UInt64) (r : Register) : Instruction :=
  plain (.store .qword)
    [.memory ⟨.qword, some .rsp, none, 1, d, .byte⟩, .register r]

def push (w : Width) (r : Register) : Instruction :=
  plain (.push w) [.register r]

def subtract (w : Width) (r s : Register) : Instruction :=
  plain (.subtract w) [.register r, .register s]

/-- `cmp dword ptr [r], 0` without a displacement. -/
def compareNull (r : Register) : Instruction :=
  plain (.compareByte .dword)
    [.memory ⟨.dword, some r, none, 1, 0, .none⟩, .immediate 0]

def jump (w : Width) (r : Register) : Instruction :=
  plain (.indirectJump w) [.register r]

def nop : Instruction :=
  plain .nop []

end Instruction
end JumpHooks
