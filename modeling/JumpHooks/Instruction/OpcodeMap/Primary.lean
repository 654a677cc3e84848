import JumpHooks.Instruction.OpcodeMap.Entry

/-!
# Opcodes of one byte

For every opcode byte, the form that it stands for under the operand and address widths in
force. Rows that differ only in an operation, a condition or a register are given by one
rule, as the encoding is. An opcode that is not listed is undefined. The map is that of the
general purpose instructions, so the floating point opcodes D8 to DF and the vector forms
behind C4, C5, 62 and 8F are among the undefined ones.
-/

namespace JumpHooks
namespace OpcodeMap

open Mode (stored)

def arithmetic : Nat → Mnemonic
  | 0 => .add
  | 1 => .or
  | 2 => .adc
  | 3 => .sbb
  | 4 => .and
  | 5 => .sub
  | 6 => .xor
  | _ => .cmp

def shift : Nat → Mnemonic
  | 0 => .rol
  | 1 => .ror
  | 2 => .rcl
  | 3 => .rcr
  | 4 => .shl
  | 5 => .shr
  | 6 => .sal
  | _ => .sar

/-- The six columns that every arithmetic operation has in the first rows of the map. -/
def arithmeticColumn (m : Mode) (opcode : Nat) (mnemonic : Mnemonic) : Nat → Entry
  | 0 => operands (sized opcode .byte mnemonic [.rm .byte, .reg .byte])
  | 1 => operands (sized opcode m.operand mnemonic [.rm m.operand, .reg m.operand])
  | 2 => operands (sized opcode .byte mnemonic [.reg .byte, .rm .byte])
  | 3 => operands (sized opcode m.operand mnemonic [.reg m.operand, .rm m.operand])
  | 4 => .plain (sized opcode .byte mnemonic [.accumulator .byte, .immediate .byte .byte])
  | _ =>
      .plain (sized opcode m.operand mnemonic
        [.accumulator m.operand, .immediate (stored m.operand) m.operand])

/-- Opcodes below 40 outside the arithmetic columns. -/
def lowOpcode (m : Mode) : Nat → Entry
  | 0x06 => compatibility m (pushSegment m 0x06 .es)
  | 0x07 => compatibility m (popSegment m 0x07 .es)
  | 0x0E => compatibility m (pushSegment m 0x0E .cs)
  | 0x16 => compatibility m (pushSegment m 0x16 .ss)
  | 0x17 => compatibility m (popSegment m 0x17 .ss)
  | 0x1E => compatibility m (pushSegment m 0x1E .ds)
  | 0x1F => compatibility m (popSegment m 0x1F .ds)
  | 0x27 => compatibility m (simple 0x27 .daa)
  | 0x2F => compatibility m (simple 0x2F .das)
  | 0x37 => compatibility m (simple 0x37 .aaa)
  | 0x3F => compatibility m (simple 0x3F .aas)
  | _ => .undefined

/-- Arithmetic with an immediate, the operation in the digit. -/
def arithmeticImmediate (opcode : Nat) (w stored : Width) : Entry :=
  digits opcode w fun d => some (arithmetic d, [.rm w, .immediate stored w])

def shiftBy (opcode : Nat) (w : Width) (count : Kind) : Entry :=
  digits opcode w fun d => some (shift d, [.rm w, count])

/-- Exchange with the accumulator; without a register to exchange, no operation. -/
def exchange (m : Mode) (column : Nat) : Entry :=
  if column = 0 ∧ m.repeating = some .f3 then
    .plain (marked m (unsized 0x90 .pause []))
  else if column = 0 ∧ m.extended = false then
    .plain (sized 0x90 m.operand .nop [])
  else
    .plain (sized 0x90 m.operand .xchg [.opcode m.operand, .accumulator m.operand])

def unaryRow (w : Width) : Nat → Option (Mnemonic × List Kind)
  | 0 => some (.test, [.rm w, .immediate (stored w) w])
  | 1 => some (.test, [.rm w, .immediate (stored w) w])
  | 2 => some (.not, [.rm w])
  | 3 => some (.neg, [.rm w])
  | 4 => some (.mul, [.rm w])
  | 5 => some (.imul, [.rm w])
  | 6 => some (.div, [.rm w])
  | _ => some (.idiv, [.rm w])

def byteStepRow : Nat → Option (Mnemonic × List Kind)
  | 0 => some (.inc, [.rm .byte])
  | 1 => some (.dec, [.rm .byte])
  | _ => none

/-- The last group of the one byte map. Calls, jumps and pushes have widths of their own. -/
def transfer (m : Mode) : Entry :=
  .modRM fun x =>
    match x.reg with
    | 0 => some ⟨none, 0xFF, some 0, some m.operand, .inc, [.rm m.operand]⟩
    | 1 => some ⟨none, 0xFF, some 1, some m.operand, .dec, [.rm m.operand]⟩
    | 2 => some ⟨none, 0xFF, some 2, some m.branch, .call, [.rm m.branch]⟩
    | 3 => some ⟨none, 0xFF, some 3, some m.operand, .callFar, [.pointer m.operand]⟩
    | 4 => some ⟨none, 0xFF, some 4, some m.branch, .jmp, [.rm m.branch]⟩
    | 5 => some ⟨none, 0xFF, some 5, some m.operand, .jmpFar, [.pointer m.operand]⟩
    | 6 => some ⟨none, 0xFF, some 6, some m.stack, .push, [.rm m.stack]⟩
    | _ => none

def convert : Width → Mnemonic
  | .word => .cbw
  | .qword => .cdqe
  | _ => .cwde

def extend : Width → Mnemonic
  | .word => .cwd
  | .qword => .cqo
  | _ => .cdq

def portWidth (w : Width) : Width :=
  if w = .word then .word else .dword

def middleOpcode (m : Mode) : Nat → Entry
  | 0x60 => compatibility m (.plain (sized 0x60 m.operand (.pusha m.operand) []))
  | 0x61 => compatibility m (.plain (sized 0x61 m.operand (.popa m.operand) []))
  | 0x62 =>
      compatibility m
        (operands (sized 0x62 m.operand .bound [.reg m.operand, .pair m.operand]))
  | 0x63 =>
      if m.long then
        operands (sized 0x63 m.operand .movsxd [.reg m.operand, .rm (stored m.operand)])
      else
        operands (sized 0x63 m.operand .arpl [.lowWord m.operand, .reg m.operand])
  | 0x68 =>
      .plain (sized 0x68 m.stack .push [.immediate (stored m.stack) m.stack])
  | 0x69 =>
      operands (sized 0x69 m.operand .imul
        [.reg m.operand, .rm m.operand, .immediate (stored m.operand) m.operand])
  | 0x6A => .plain (sized 0x6A m.stack .push [.immediate .byte m.stack])
  | 0x6B =>
      operands (sized 0x6B m.operand .imul
        [.reg m.operand, .rm m.operand, .immediate .byte m.operand])
  | 0x6C => .plain (sized 0x6C .byte (.ins .byte) [.destination, .fixed .dx])
  | 0x6D =>
      .plain (sized 0x6D (portWidth m.operand) (.ins (portWidth m.operand))
        [.destination, .fixed .dx])
  | 0x6E => .plain (sized 0x6E .byte (.outs .byte) [.fixed .dx, .source])
  | 0x6F =>
      .plain (sized 0x6F (portWidth m.operand) (.outs (portWidth m.operand))
        [.fixed .dx, .source])
  | 0x80 => arithmeticImmediate 0x80 .byte .byte
  | 0x81 => arithmeticImmediate 0x81 m.operand (stored m.operand)
  | 0x82 => compatibility m (arithmeticImmediate 0x82 .byte .byte)
  | 0x83 => arithmeticImmediate 0x83 m.operand .byte
  | 0x84 => operands (sized 0x84 .byte .test [.rm .byte, .reg .byte])
  | 0x85 => operands (sized 0x85 m.operand .test [.rm m.operand, .reg m.operand])
  | 0x86 => operands (sized 0x86 .byte .xchg [.rm .byte, .reg .byte])
  | 0x87 => operands (sized 0x87 m.operand .xchg [.rm m.operand, .reg m.operand])
  | 0x88 => operands (sized 0x88 .byte .mov [.rm .byte, .reg .byte])
  | 0x89 => operands (sized 0x89 m.operand .mov [.rm m.operand, .reg m.operand])
  | 0x8A => operands (sized 0x8A .byte .mov [.reg .byte, .rm .byte])
  | 0x8B => operands (sized 0x8B m.operand .mov [.reg m.operand, .rm m.operand])
  | 0x8C => operands (sized 0x8C m.operand .mov [.selector m.operand, .segment])
  | 0x8D => operands (sized 0x8D m.operand .lea [.reg m.operand, .memory none])
  | 0x8E =>
      .modRM fun x =>
        if x.reg = 1 then
          none
        else
          some (sized 0x8E m.operand .mov [.segment, .lowWord m.operand])
  | 0x8F =>
      digits 0x8F m.stack fun d => if d = 0 then some (.pop, [.rm m.stack]) else none
  | 0x98 => .plain (sized 0x98 m.operand (convert m.operand) [])
  | 0x99 => .plain (sized 0x99 m.operand (extend m.operand) [])
  | 0x9A =>
      compatibility m (.plain (sized 0x9A m.operand .callFar [.farPointer m.operand]))
  | 0x9B => simple 0x9B .fwait
  | 0x9C => .plain (sized 0x9C m.stack (.pushf m.stack) [])
  | 0x9D => .plain (sized 0x9D m.stack (.popf m.stack) [])
  | 0x9E => simple 0x9E .sahf
  | 0x9F => simple 0x9F .lahf
  | 0xA0 => .plain (sized 0xA0 .byte .mov [.accumulator .byte, .absolute .byte])
  | 0xA1 =>
      .plain (sized 0xA1 m.operand .mov [.accumulator m.operand, .absolute m.operand])
  | 0xA2 => .plain (sized 0xA2 .byte .mov [.absolute .byte, .accumulator .byte])
  | 0xA3 =>
      .plain (sized 0xA3 m.operand .mov [.absolute m.operand, .accumulator m.operand])
  | 0xA4 => .plain (sized 0xA4 .byte (.movs .byte) [.destination, .source])
  | 0xA5 => .plain (sized 0xA5 m.operand (.movs m.operand) [.destination, .source])
  | 0xA6 => .plain (sized 0xA6 .byte (.cmps .byte) [.source, .destination])
  | 0xA7 => .plain (sized 0xA7 m.operand (.cmps m.operand) [.source, .destination])
  | 0xA8 =>
      .plain (sized 0xA8 .byte .test [.accumulator .byte, .immediate .byte .byte])
  | 0xA9 =>
      .plain (sized 0xA9 m.operand .test
        [.accumulator m.operand, .immediate (stored m.operand) m.operand])
  | 0xAA => .plain (sized 0xAA .byte (.stos .byte) [.destination, .accumulator .byte])
  | 0xAB =>
      .plain (sized 0xAB m.operand (.stos m.operand)
        [.destination, .accumulator m.operand])
  | 0xAC => .plain (sized 0xAC .byte (.lods .byte) [.accumulator .byte, .source])
  | 0xAD =>
      .plain (sized 0xAD m.operand (.lods m.operand) [.accumulator m.operand, .source])
  | 0xAE => .plain (sized 0xAE .byte (.scas .byte) [.accumulator .byte, .destination])
  | 0xAF =>
      .plain (sized 0xAF m.operand (.scas m.operand)
        [.accumulator m.operand, .destination])
  | _ => .undefined

/-- Gives a transaction up. -/
def transactionAbort : Form :=
  unsized 0xC6F8 (.system .xabort) [.immediate .byte .byte]

/-- Begins a transaction. Its target is never cut to a word. -/
def transactionBegin (m : Mode) : Form :=
  sized 0xC7F8 (stored m.operand) (.system .xbegin)
    [.relative (stored m.operand) m.native]

/-- A store of an immediate. One ModRM byte of the last digit is an opcode of its own. -/
def storeImmediate (opcode : Nat) (w : Width) (last : Form) : Entry :=
  .modRM fun x =>
    if x.reg = 0 then
      some ⟨none, opcode, some 0, some w, .mov, [.rm w, .immediate (stored w) w]⟩
    else if x.isRegister ∧ x.low = 0x38 then
      some last
    else
      none

def highOpcode (m : Mode) : Nat → Entry
  | 0xC0 => shiftBy 0xC0 .byte (.immediate .byte .byte)
  | 0xC1 => shiftBy 0xC1 m.operand (.immediate .byte .byte)
  | 0xC2 => .plain (sized 0xC2 m.branch .ret [.immediate .word .word])
  | 0xC3 => .plain (sized 0xC3 m.branch .ret [])
  | 0xC4 => compatibility m (loadFar m 0xC4 .les)
  | 0xC5 => compatibility m (loadFar m 0xC5 .lds)
  | 0xC6 => storeImmediate 0xC6 .byte transactionAbort
  | 0xC7 => storeImmediate 0xC7 m.operand (transactionBegin m)
  | 0xC8 =>
      .plain (sized 0xC8 m.stack .enter [.immediate .word .word, .immediate .byte .byte])
  | 0xC9 => .plain (sized 0xC9 m.stack .leave [])
  | 0xCA => .plain (sized 0xCA m.operand .retFar [.immediate .word .word])
  | 0xCB => .plain (sized 0xCB m.operand .retFar [])
  | 0xCC => simple 0xCC .int3
  | 0xCD => .plain (unsized 0xCD .int [.immediate .byte .byte])
  | 0xCE => compatibility m (simple 0xCE .into)
  | 0xCF => .plain (sized 0xCF m.operand (.iret m.operand) [])
  | 0xD0 => shiftBy 0xD0 .byte .one
  | 0xD1 => shiftBy 0xD1 m.operand .one
  | 0xD2 => shiftBy 0xD2 .byte (.fixed .cl)
  | 0xD3 => shiftBy 0xD3 m.operand (.fixed .cl)
  | 0xD4 => compatibility m (.plain (unsized 0xD4 .aam [.immediate .byte .byte]))
  | 0xD5 => compatibility m (.plain (unsized 0xD5 .aad [.immediate .byte .byte]))
  | 0xD6 => compatibility m (simple 0xD6 .salc)
  | 0xD7 => .plain (unsized 0xD7 .xlat [.table])
  | 0xE0 => jump m 0xE0 (.loopne m.address) .byte
  | 0xE1 => jump m 0xE1 (.loope m.address) .byte
  | 0xE2 => jump m 0xE2 (.loop m.address) .byte
  | 0xE3 => jump m 0xE3 (.jcxz m.address) .byte
  | 0xE4 => .plain (sized 0xE4 .byte .inp [.accumulator .byte, .immediate .byte .byte])
  | 0xE5 =>
      .plain (sized 0xE5 (portWidth m.operand) .inp
        [.accumulator (portWidth m.operand), .immediate .byte .byte])
  | 0xE6 => .plain (sized 0xE6 .byte .out [.immediate .byte .byte, .accumulator .byte])
  | 0xE7 =>
      .plain (sized 0xE7 (portWidth m.operand) .out
        [.immediate .byte .byte, .accumulator (portWidth m.operand)])
  | 0xE8 => jump m 0xE8 .call (fullDistance m)
  | 0xE9 => jump m 0xE9 .jmp (fullDistance m)
  | 0xEA =>
      compatibility m (.plain (sized 0xEA m.operand .jmpFar [.farPointer m.operand]))
  | 0xEB => jump m 0xEB .jmp .byte
  | 0xEC => .plain (sized 0xEC .byte .inp [.accumulator .byte, .fixed .dx])
  | 0xED =>
      .plain (sized 0xED (portWidth m.operand) .inp
        [.accumulator (portWidth m.operand), .fixed .dx])
  | 0xEE => .plain (sized 0xEE .byte .out [.fixed .dx, .accumulator .byte])
  | 0xEF =>
      .plain (sized 0xEF (portWidth m.operand) .out
        [.fixed .dx, .accumulator (portWidth m.operand)])
  | 0xF1 => simple 0xF1 .int1
  | 0xF4 => simple 0xF4 .hlt
  | 0xF5 => simple 0xF5 .cmc
  | 0xF6 => digits 0xF6 .byte (unaryRow .byte)
  | 0xF7 => digits 0xF7 m.operand (unaryRow m.operand)
  | 0xF8 => simple 0xF8 .clc
  | 0xF9 => simple 0xF9 .stc
  | 0xFA => simple 0xFA .cli
  | 0xFB => simple 0xFB .sti
  | 0xFC => simple 0xFC .cld
  | 0xFD => simple 0xFD .std
  | 0xFE => digits 0xFE .byte byteStepRow
  | 0xFF => transfer m
  | _ => .undefined

/-- The map of one byte opcodes. REX bytes are not opcodes and do not reach it. -/
def primary (m : Mode) (opcode : Nat) : Entry :=
  if opcode < 0x40 then
    if opcode % 8 < 6 then
      arithmeticColumn m opcode (arithmetic (opcode / 8)) (opcode % 8)
    else
      lowOpcode m opcode
  else if opcode < 0x48 then
    .plain (sized 0x40 m.operand .inc [.opcode m.operand])
  else if opcode < 0x50 then
    .plain (sized 0x48 m.operand .dec [.opcode m.operand])
  else if opcode < 0x58 then
    .plain (sized 0x50 m.stack .push [.opcode m.stack])
  else if opcode < 0x60 then
    .plain (sized 0x58 m.stack .pop [.opcode m.stack])
  else if opcode < 0x70 then
    middleOpcode m opcode
  else if opcode < 0x80 then
    jump m opcode (.j (.ofNumber (opcode % 16))) .byte
  else if opcode < 0x90 then
    middleOpcode m opcode
  else if opcode < 0x98 then
    exchange m (opcode % 8)
  else if opcode < 0xB0 then
    middleOpcode m opcode
  else if opcode < 0xB8 then
    .plain (sized 0xB0 .byte .mov [.opcode .byte, .immediate .byte .byte])
  else if opcode < 0xC0 then
    .plain (sized 0xB8 m.operand .mov
      [.opcode m.operand, .immediate m.operand m.operand])
  else
    highOpcode m opcode

end OpcodeMap
end JumpHooks
