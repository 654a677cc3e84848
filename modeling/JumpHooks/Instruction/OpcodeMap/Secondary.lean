import JumpHooks.Instruction.OpcodeMap.System

/-!
# Opcodes after 0F

As with opcodes of one byte, rows that differ in one respect are given by one rule, and an
opcode that is not listed is undefined. The vector instructions, to which 10 to 17, 28 to 2F,
50 to 7F, C2, C4 to C6 and D0 to FE belong for the most part, are not listed.
-/

namespace JumpHooks
namespace OpcodeMap

def bitTest (m : Mode) (opcode : Nat) (mnemonic : Mnemonic) : Entry :=
  operands (sized opcode m.operand mnemonic [.rm m.operand, .reg m.operand])

def bitRow (w : Width) : Nat → Option (Mnemonic × List Kind)
  | 4 => some (.bt, [.rm w, .immediate .byte .byte])
  | 5 => some (.bts, [.rm w, .immediate .byte .byte])
  | 6 => some (.btr, [.rm w, .immediate .byte .byte])
  | 7 => some (.btc, [.rm w, .immediate .byte .byte])
  | _ => none

/-- A bit search, or the counting operation that F3 turns it into. -/
def search (m : Mode) (opcode : Nat) (mnemonic counting : Mnemonic) : Entry :=
  if m.repeating = some .f3 then
    operands (marked m (sized opcode m.operand counting [.reg m.operand, .rm m.operand]))
  else
    operands (sized opcode m.operand mnemonic [.reg m.operand, .rm m.operand])

def randomRow (w : Width) : Nat → Option Form
  | 6 => some ⟨none, 0x0FC7, some 6, some w, .rdrand, [.direct w]⟩
  | 7 => some ⟨none, 0x0FC7, some 7, some w, .rdseed, [.direct w]⟩
  | _ => none

/-- The widest comparison, and operations that only share its opcode. -/
def compareWide (m : Mode) : Entry :=
  .modRM fun x =>
    if x.isRegister then
      match m.selector with
      | .f3 => (processorRegister m x.reg).map (marked m)
      | .f2 => none
      | _ => randomRow m.operand x.reg
    else if x.reg = 1 then
      some ⟨none, 0x0FC7, some 1, none,
        if m.operand = .qword then .cmpxchg16b else .cmpxchg8b, [.memory none]⟩
    else
      (pointerMemory m m.selector x.reg).map (marked m)

/-- An operation that does nothing, with operands for a later meaning. -/
def reservedNop (m : Mode) (opcode : Nat) : Form :=
  sized opcode m.operand .nop [.rm m.operand, .reg m.operand]

def prefetchForm (opcode digit : Nat) (hint : PrefetchHint) : Form :=
  ⟨none, opcode, some digit, none, .prefetch hint, [.memory none]⟩

/-- Prefetches for a write and their neighbours. -/
def writeHint : Nat → PrefetchHint
  | 0 => .unspecified
  | 1 => .w
  | 2 => .wt1
  | 3 => .w
  | _ => .reserved

def prefetchWrite (m : Mode) : Entry :=
  .modRM fun x =>
    some (if x.isRegister then
      reservedNop m 0x0F0D
    else
      prefetchForm 0x0F0D x.reg (writeHint x.reg))

/-- Prefetches of data and, in 64-bit code, of code. -/
def readHint (m : Mode) : Nat → Option PrefetchHint
  | 0 => some .nta
  | 1 => some .t0
  | 2 => some .t1
  | 3 => some .t2
  | 6 => longOnly m .it1
  | 7 => longOnly m .it0
  | _ => none

def prefetchRead (m : Mode) : Entry :=
  .modRM fun x =>
    match if x.isRegister then none else readHint m x.reg with
    | some hint => some (prefetchForm 0x0F18 x.reg hint)
    | none => some (reservedNop m 0x0F18)

def demote (m : Mode) : Entry :=
  .modRM fun x =>
    match m.selector, x.isRegister, x.reg with
    | .none, false, 0 => some (system 0x0F1C (some 0) .cldemote [.memory none])
    | _, _, _ => some (reservedNop m 0x0F1C)

/-- A read of the shadow stack pointer, the branch tracking marks, or no operation. -/
def tracking (m : Mode) : Entry :=
  .modRM fun x =>
    if m.repeating = some .f3 ∧ x.isRegister ∧ x.reg = 1 then
      some (marked m
        (sizedSystem 0x0F1E (some 1) m.whole (.rdssp m.whole) [.direct m.whole]))
    else if m.repeating = some .f3 ∧ x.isRegister ∧ x.low = 0x3A then
      some (marked m (unsized 0x0F1E .endbr64 []))
    else if m.repeating = some .f3 ∧ x.isRegister ∧ x.low = 0x3B then
      some (marked m (unsized 0x0F1E .endbr32 []))
    else
      some (reservedNop m 0x0F1E)

/-- The operation that does nothing to its one operand. -/
def longNop (m : Mode) : Entry :=
  .modRM fun x =>
    some (if x.reg = 0 then
      ⟨none, 0x0F1F, some 0, some m.operand, .nop, [.rm m.operand]⟩
    else
      reservedNop m 0x0F1F)

/-- Writes the caches back, and forgets what they hold unless F3 keeps it. -/
def writeBack (m : Mode) : Entry :=
  if m.repeating = some .f3 then
    .plain (marked m (system 0x0F09 none .wbnoinvd []))
  else
    .plain (system 0x0F09 none .wbinvd [])

/-- A store past the caches, which nothing in front may change. -/
def directStore (m : Mode) (opcode : Nat) (mnemonic : Mnemonic) : Entry :=
  match m.selector with
  | .none => operands (sized opcode m.whole mnemonic [.memory (some m.whole), .reg m.whole])
  | _ => .undefined

/-- Opcodes after 0F outside the regular rows. -/
def secondaryOpcode (m : Mode) : Nat → Entry
  | 0x00 => descriptorGroup m
  | 0x01 => machineGroup m
  | 0x02 => segmentField m 0x0F02 .lar
  | 0x03 => segmentField m 0x0F03 .lsl
  | 0x05 => .plain (system 0x0F05 none .syscall [])
  | 0x06 => .plain (system 0x0F06 none .clts [])
  | 0x07 => .plain (system 0x0F07 none (.sysret (isWide m)) [])
  | 0x08 => .plain (system 0x0F08 none .invd [])
  | 0x09 => writeBack m
  | 0x0B => simple 0x0F0B .ud2
  | 0x0D => prefetchWrite m
  | 0x18 => prefetchRead m
  | 0x19 => operands (reservedNop m 0x0F19)
  | 0x1A => operands (reservedNop m 0x0F1A)
  | 0x1B => operands (reservedNop m 0x0F1B)
  | 0x1C => demote m
  | 0x1D => operands (reservedNop m 0x0F1D)
  | 0x1E => tracking m
  | 0x1F => longNop m
  | 0x20 => machineMove m 0x0F20 isControl [.direct m.native, .control]
  | 0x21 => machineMove m 0x0F21 isDebug [.direct m.native, .debug]
  | 0x22 => machineMove m 0x0F22 isControl [.control, .direct m.native]
  | 0x23 => machineMove m 0x0F23 isDebug [.debug, .direct m.native]
  | 0x30 => .plain (system 0x0F30 none .wrmsr [])
  | 0x31 => simple 0x0F31 .rdtsc
  | 0x32 => .plain (system 0x0F32 none .rdmsr [])
  | 0x33 => .plain (system 0x0F33 none .rdpmc [])
  | 0x34 => .plain (system 0x0F34 none .sysenter [])
  | 0x35 => .plain (system 0x0F35 none (.sysexit (isWide m)) [])
  | 0x37 =>
      match m.selector with
      | .none => .plain (system 0x0F37 none .getsec [])
      | _ => .undefined
  | 0x78 => machineField m 0x0F78 .vmread [.rm m.native, .reg m.native]
  | 0x79 => machineField m 0x0F79 .vmwrite [.reg m.native, .rm m.native]
  | 0xA0 => pushSegment m 0x0FA0 .fs
  | 0xA1 => popSegment m 0x0FA1 .fs
  | 0xA2 => simple 0x0FA2 .cpuid
  | 0xA3 => bitTest m 0x0FA3 .bt
  | 0xA4 =>
      operands (sized 0x0FA4 m.operand .shld
        [.rm m.operand, .reg m.operand, .immediate .byte .byte])
  | 0xA5 =>
      operands (sized 0x0FA5 m.operand .shld
        [.rm m.operand, .reg m.operand, .fixed .cl])
  | 0xA6 => runGroup m 0x0FA6 digestOperation
  | 0xA7 => runGroup m 0x0FA7 cipherOperation
  | 0xA8 => pushSegment m 0x0FA8 .gs
  | 0xA9 => popSegment m 0x0FA9 .gs
  | 0xAA => .plain (system 0x0FAA none .rsm [])
  | 0xAB => bitTest m 0x0FAB .bts
  | 0xAC =>
      operands (sized 0x0FAC m.operand .shrd
        [.rm m.operand, .reg m.operand, .immediate .byte .byte])
  | 0xAD =>
      operands (sized 0x0FAD m.operand .shrd
        [.rm m.operand, .reg m.operand, .fixed .cl])
  | 0xAE => stateGroup m
  | 0xAF => operands (sized 0x0FAF m.operand .imul [.reg m.operand, .rm m.operand])
  | 0xB0 => operands (sized 0x0FB0 .byte .cmpxchg [.rm .byte, .reg .byte])
  | 0xB1 => operands (sized 0x0FB1 m.operand .cmpxchg [.rm m.operand, .reg m.operand])
  | 0xB2 => loadFar m 0x0FB2 .lss
  | 0xB3 => bitTest m 0x0FB3 .btr
  | 0xB4 => loadFar m 0x0FB4 .lfs
  | 0xB5 => loadFar m 0x0FB5 .lgs
  | 0xB6 => operands (sized 0x0FB6 m.operand .movzx [.reg m.operand, .rm .byte])
  | 0xB7 => operands (sized 0x0FB7 m.operand .movzx [.reg m.operand, .rm .word])
  | 0xB8 =>
      if m.repeating = some .f3 then
        operands
          (marked m (sized 0x0FB8 m.operand .popcnt [.reg m.operand, .rm m.operand]))
      else
        .undefined
  | 0xB9 => operands (sized 0x0FB9 m.operand .ud1 [.reg m.operand, .rm m.operand])
  | 0xBA => digits 0x0FBA m.operand (bitRow m.operand)
  | 0xBB => bitTest m 0x0FBB .btc
  | 0xBC => search m 0x0FBC .bsf .tzcnt
  | 0xBD => search m 0x0FBD .bsr .lzcnt
  | 0xBE => operands (sized 0x0FBE m.operand .movsx [.reg m.operand, .rm .byte])
  | 0xBF => operands (sized 0x0FBF m.operand .movsx [.reg m.operand, .rm .word])
  | 0xC0 => operands (sized 0x0FC0 .byte .xadd [.rm .byte, .reg .byte])
  | 0xC1 => operands (sized 0x0FC1 m.operand .xadd [.rm m.operand, .reg m.operand])
  | 0xC3 => directStore m 0x0FC3 .movnti
  | 0xC7 => compareWide m
  | 0xFF => operands (sized 0x0FFF m.operand .ud0 [.reg m.operand, .rm m.operand])
  | _ => .undefined

/-- The map of opcodes after 0F. -/
def secondary (m : Mode) (opcode : Nat) : Entry :=
  if 0x40 ≤ opcode ∧ opcode < 0x50 then
    operands (sized (0x0F00 + opcode) m.operand (.cmov (.ofNumber (opcode % 16)))
      [.reg m.operand, .rm m.operand])
  else if 0x80 ≤ opcode ∧ opcode < 0x90 then
    jump m (0x0F00 + opcode) (.j (.ofNumber (opcode % 16))) (fullDistance m)
  else if 0x90 ≤ opcode ∧ opcode < 0xA0 then
    operands (sized (0x0F00 + opcode) .byte (.set (.ofNumber (opcode % 16))) [.rm .byte])
  else if 0xC8 ≤ opcode ∧ opcode < 0xD0 then
    .plain (sized 0x0FC8 m.operand .bswap [.opcode m.operand])
  else
    secondaryOpcode m opcode

end OpcodeMap
end JumpHooks
