import JumpHooks.Instruction.OpcodeMap.Secondary

/-!
# Opcodes after 0F 38 and 0F 3A

The bytes in front of these opcodes are part of them: with other bytes in front they stand
for something else or for nothing. As in the other maps, the vector instructions are undefined.
-/

namespace JumpHooks
namespace OpcodeMap

/-- A move that swaps bytes, or a step of a checksum over an operand of width `w`. -/
def checksumOrSwap (m : Mode) (opcode : Nat) (w : Width) (swap : List Kind) : Entry :=
  match m.selector with
  | .f2 => operands (marked m (sized opcode m.whole .crc32 [.reg m.whole, .rm w]))
  | .f3 => .undefined
  | _ => operands (sized opcode m.operand .movbe swap)

/-- Additions that use one flag only, and a store to the shadow stack. -/
def carryOrShadow (m : Mode) : Entry :=
  match m.selector with
  | .none => operands (shadowStore m 0x0F38F6 (.wrss m.whole))
  | .narrow => operands (sized 0x0F38F6 m.whole .adcx [.reg m.whole, .rm m.whole])
  | .f3 => operands (marked m (sized 0x0F38F6 m.whole .adox [.reg m.whole, .rm m.whole]))
  | .f2 => .undefined

/-- Stores of a block of memory at an address in a register. -/
def blockStore (m : Mode) : Entry :=
  let form (mnemonic : Mnemonic) :=
    operands (marked m (sized 0x0F38F8 m.address mnemonic [.reg m.address, .memory none]))
  match m.selector with
  | .none => .undefined
  | .narrow => form .movdir64b
  | .f3 => form (.system .enqcmds)
  | .f2 => form (.system .enqcmd)

/-- Arithmetic far from the processor, chosen by what stands in front. -/
def remote (m : Mode) : Entry :=
  let mnemonic : Mnemonic :=
    match m.selector with
    | .none => .aadd
    | .narrow => .aand
    | .f3 => .axor
    | .f2 => .aor
  operands (marked m
    (sized 0x0F38FC m.whole mnemonic [.memory (some m.whole), .reg m.whole]))

/-- The map of opcodes after 0F 38. -/
def tertiary (m : Mode) : Nat → Entry
  | 0x80 => forget m 0x0F3880 .invept
  | 0x81 => forget m 0x0F3881 .invvpid
  | 0x82 => forget m 0x0F3882 .invpcid
  | 0xF0 => checksumOrSwap m 0x0F38F0 .byte [.reg m.operand, .memory (some m.operand)]
  | 0xF1 => checksumOrSwap m 0x0F38F1 m.operand [.memory (some m.operand), .reg m.operand]
  | 0xF5 =>
      match m.selector with
      | .narrow => operands (shadowStore m 0x0F38F5 (.wruss m.whole))
      | _ => .undefined
  | 0xF6 => carryOrShadow m
  | 0xF8 => blockStore m
  | 0xF9 => directStore m 0x0F38F9 .movdiri
  | 0xFC => remote m
  | _ => .undefined

/-- The map of opcodes after 0F 3A, which all end in an immediate. -/
def immediateTertiary (m : Mode) : Nat → Entry
  | 0xF0 =>
      .modRM fun x =>
        if m.repeating = some .f3 ∧ x.isRegister ∧ x.low = 0 then
          some (marked m (system 0x0F3AF0C0 none .hreset [.immediate .byte .byte]))
        else
          none
  | _ => .undefined

end OpcodeMap
end JumpHooks
