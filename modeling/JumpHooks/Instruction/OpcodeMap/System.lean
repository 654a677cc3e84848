import JumpHooks.Instruction.OpcodeMap.Entry

/-!
# Opcodes of system operations

Most of these share an opcode, and are told apart by the digit of the ModRM byte, by whether
it names a register or memory, by its low bits, and by the bytes in front of the opcode.
-/

namespace JumpHooks
namespace OpcodeMap

/-- A form of a system operation without operands of a chosen width. -/
def system (opcode : Nat) (digit : Option Nat) (o : SystemOperation) (kinds : List Kind) :
    Form :=
  ⟨none, opcode, digit, none, .system o, kinds⟩

def sizedSystem (opcode : Nat) (digit : Option Nat) (w : Width) (o : SystemOperation)
    (kinds : List Kind) : Form :=
  ⟨none, opcode, digit, some w, .system o, kinds⟩

/-- The form, if the code is 64-bit code. -/
def longOnly {α : Type} (m : Mode) (a : α) : Option α :=
  if m.long then some a else none

/-- Whether a register of 64-bit code is saved or loaded in full. -/
def isWide (m : Mode) : Bool :=
  m.operand == .qword

/-- Segment descriptors: the two registers that hold one, and checks of one. -/
def descriptorGroup (m : Mode) : Entry :=
  .modRM fun x =>
    match x.reg with
    | 0 => some (sizedSystem 0x0F00 (some 0) m.operand .sldt [.selector m.operand])
    | 1 => some (sizedSystem 0x0F00 (some 1) m.operand .str [.selector m.operand])
    | 2 => some (sizedSystem 0x0F00 (some 2) m.operand .lldt [.lowWord m.operand])
    | 3 => some (sizedSystem 0x0F00 (some 3) m.operand .ltr [.lowWord m.operand])
    | 4 => some (sizedSystem 0x0F00 (some 4) m.operand .verr [.lowWord m.operand])
    | 5 => some (sizedSystem 0x0F00 (some 5) m.operand .verw [.lowWord m.operand])
    | 6 =>
        if m.repeating = some .f2 then
          longOnly m
            (marked m (sizedSystem 0x0F00 (some 6) m.operand .lkgs [.lowWord m.operand]))
        else
          none
    | _ => none

/-- A register that holds where a descriptor table stands and how long it is. -/
def tableRegister (m : Mode) (digit : Nat) (o : SystemOperation) : Form :=
  sizedSystem 0x0F01 (some digit) m.branch o
    [if m.branch = .word then .pointer .dword else .memory none]

/-- Operations of 0F 01 on a register or memory. -/
def machineRow (m : Mode) (digit : Nat) : Option Form :=
  match digit with
  | 0 => some (tableRegister m 0 .sgdt)
  | 1 => some (tableRegister m 1 .sidt)
  | 2 => some (tableRegister m 2 .lgdt)
  | 3 => some (tableRegister m 3 .lidt)
  | 4 => some (sizedSystem 0x0F01 (some 4) m.operand .smsw [.selector m.operand])
  | 5 =>
      if m.repeating = some .f3 then
        some (marked m (system 0x0F01 (some 5) .rstorssp [.memory none]))
      else
        none
  | 6 => some (sizedSystem 0x0F01 (some 6) m.operand .lmsw [.lowWord m.operand])
  | _ => some (system 0x0F01 (some 7) .invlpg [.memory none])

/-- Operations of 0F 01 with these low bits, whatever stands in front. -/
def anyControl (m : Mode) : Nat → Option SystemOperation
  | 0x18 => some .vmrun
  | 0x1A => some .vmload
  | 0x1B => some .vmsave
  | 0x1C => some .stgi
  | 0x1D => some .clgi
  | 0x1E => some .skinit
  | 0x1F => some .invlpga
  | 0x38 => longOnly m .swapgs
  | 0x3B => some .mwaitx
  | 0x3C => some .clzero
  | 0x3D => some .rdpru
  | _ => none

/-- Operations of 0F 01 with these low bits and nothing in front. -/
def bareControl (m : Mode) : Nat → Option SystemOperation
  | 0x00 => some .enclv
  | 0x01 => some .vmcall
  | 0x02 => some .vmlaunch
  | 0x03 => some .vmresume
  | 0x04 => some .vmxoff
  | 0x05 => some .pconfig
  | 0x06 => some .wrmsrns
  | 0x07 => longOnly m .pbndkb
  | 0x08 => some .monitor
  | 0x09 => some .mwait
  | 0x0A => some .clac
  | 0x0B => some .stac
  | 0x0F => some .encls
  | 0x10 => some .xgetbv
  | 0x11 => some .xsetbv
  | 0x14 => some .vmfunc
  | 0x15 => some .xend
  | 0x16 => some .xtest
  | 0x17 => some .enclu
  | 0x19 => some .vmmcall
  | 0x28 => some .serialize
  | 0x2E => some .rdpkru
  | 0x2F => some .wrpkru
  | 0x3A => some .monitorx
  | 0x3E => some .invlpgb
  | 0x3F => some .tlbsync
  | _ => none

def narrowControl (m : Mode) : Nat → Option SystemOperation
  | 0x0C => some .tdcall
  | 0x0D => longOnly m .seamret
  | 0x0E => longOnly m .seamops
  | 0x0F => longOnly m .seamcall
  | _ => none

def f3Control (m : Mode) : Nat → Option SystemOperation
  | 0x06 => longOnly m .wrmsrlist
  | 0x0A => longOnly m .eretu
  | 0x19 => some .vmgexit
  | 0x28 => some .setssbsy
  | 0x2A => some .saveprevssp
  | 0x2C => longOnly m .uiret
  | 0x2D => longOnly m .testui
  | 0x2E => longOnly m .clui
  | 0x2F => longOnly m .stui
  | 0x3A => some .mcommit
  | 0x3E => longOnly m .rmpadjust
  | 0x3F => longOnly m .psmash
  | _ => none

def f2Control (m : Mode) : Nat → Option SystemOperation
  | 0x06 => longOnly m .rdmsrlist
  | 0x0A => longOnly m .erets
  | 0x19 => some .vmgexit
  | 0x28 => some .xsusldtrk
  | 0x29 => some .xresldtrk
  | 0x3E => longOnly m .rmpupdate
  | 0x3F => some .pvalidate
  | _ => none

def selectedControl (m : Mode) (low : Nat) : Option SystemOperation :=
  match m.selector with
  | .none => bareControl m low
  | .narrow => narrowControl m low
  | .f3 => f3Control m low
  | .f2 => f2Control m low

/-- The registers that an operation of 0F 01 shows, though its opcode fixes them. -/
def controlKinds (m : Mode) : SystemOperation → List Kind
  | .vmrun => [.accumulator m.address]
  | .vmload => [.accumulator m.address]
  | .vmsave => [.accumulator m.address]
  | .skinit => [.fixed .eax]
  | .invlpga => [.accumulator m.address, .fixed .ecx]
  | _ => []

def controlForm (m : Mode) (low : Nat) (o : SystemOperation) : Form :=
  ⟨none, 0x0F01C0 + low, none, if o.hidesAddress then some m.address else none, .system o,
    controlKinds m o⟩

/-- An operation of 0F 01 that takes the whole ModRM byte. -/
def control (m : Mode) (low : Nat) : Option Form :=
  match anyControl m low with
  | some o => some (controlForm m low o)
  | none => (selectedControl m low).map fun o => marked m (controlForm m low o)

def machineGroup (m : Mode) : Entry :=
  .modRM fun x =>
    if x.isRegister ∧ x.low = 0x39 then
      some (unsized 0x0F01F9 .rdtscp [])
    else if x.isRegister ∧ x.reg ≠ 4 ∧ x.reg ≠ 6 then
      control m x.low
    else
      machineRow m x.reg

/-- The access rights or the limit of a segment, by its selector. -/
def segmentField (m : Mode) (opcode : Nat) (o : SystemOperation) : Entry :=
  operands (sizedSystem opcode none m.operand o [.reg m.operand, .selector m.operand])

def isControl (number : Nat) : Bool :=
  [0, 2, 3, 4, 8].contains number

def isDebug (number : Nat) : Bool :=
  number < 8

/-- Moves between a full register and a register of the machine. -/
def machineMove (m : Mode) (opcode : Nat) (isNumber : Nat → Bool) (kinds : List Kind) :
    Entry :=
  .registers fun n =>
    if isNumber n then some (sized opcode m.native .mov kinds) else none

/-- Operations of 0F AE on memory. -/
def stateMemory (m : Mode) : Selector → Nat → Option Form
  | .none, 0 => some (system 0x0FAE (some 0) (.fxsave (isWide m)) [.memory none])
  | .none, 1 => some (system 0x0FAE (some 1) (.fxrstor (isWide m)) [.memory none])
  | .none, 2 => some (system 0x0FAE (some 2) .ldmxcsr [.memory none])
  | .none, 3 => some (system 0x0FAE (some 3) .stmxcsr [.memory none])
  | .none, 4 => some (system 0x0FAE (some 4) (.xsave (isWide m)) [.memory none])
  | .none, 5 => some (system 0x0FAE (some 5) (.xrstor (isWide m)) [.memory none])
  | .none, 6 => some (system 0x0FAE (some 6) (.xsaveopt (isWide m)) [.memory none])
  | .none, 7 => some (system 0x0FAE (some 7) .clflush [.memory none])
  | .narrow, 6 => some (system 0x0FAE (some 6) .clwb [.memory none])
  | .narrow, 7 => some (system 0x0FAE (some 7) .clflushopt [.memory none])
  | .f3, 4 => some (sizedSystem 0x0FAE (some 4) m.whole .ptwrite [.rm m.whole])
  | .f3, 6 => some (system 0x0FAE (some 6) .clrssbsy [.memory none])
  | _, _ => none

/-- Moves between a register and the base of one of the two extra segments. -/
def baseMove (m : Mode) (digit : Nat) (o : SystemOperation) : Option Form :=
  longOnly m (sizedSystem 0x0FAE (some digit) m.whole o [.direct m.whole])

/-- Operations of 0F AE on a register. The fences have none, and every low half of their
ModRM byte is an opcode of its own. -/
def stateRegister (m : Mode) (x : ModRM) : Selector → Nat → Option Form
  | .none, 5 => some (system (0x0FAEC0 + x.low) none .lfence [])
  | .none, 6 => some (system (0x0FAEC0 + x.low) none .mfence [])
  | .none, 7 => some (system (0x0FAEC0 + x.low) none .sfence [])
  | .narrow, 6 => some (sizedSystem 0x0FAE (some 6) m.whole .tpause [.direct m.whole])
  | .f3, 0 => baseMove m 0 .rdfsbase
  | .f3, 1 => baseMove m 1 .rdgsbase
  | .f3, 2 => baseMove m 2 .wrfsbase
  | .f3, 3 => baseMove m 3 .wrgsbase
  | .f3, 4 => some (sizedSystem 0x0FAE (some 4) m.whole .ptwrite [.rm m.whole])
  | .f3, 5 => some (sizedSystem 0x0FAE (some 5) m.whole (.incssp m.whole) [.direct m.whole])
  | .f3, 6 => some (sizedSystem 0x0FAE (some 6) m.address .umonitor [.direct m.address])
  | .f2, 6 => some (sizedSystem 0x0FAE (some 6) m.whole .umwait [.direct m.whole])
  | _, _ => none

def stateGroup (m : Mode) : Entry :=
  .modRM fun x =>
    let form? :=
      if x.isRegister then
        stateRegister m x m.selector x.reg
      else
        stateMemory m m.selector x.reg
    form?.map (marked m)

/-- Operations of 0F C7 on memory, other than the comparison. -/
def pointerMemory (m : Mode) : Selector → Nat → Option Form
  | .none, 3 => some (system 0x0FC7 (some 3) (.xrstors (isWide m)) [.memory none])
  | .none, 4 => some (system 0x0FC7 (some 4) (.xsavec (isWide m)) [.memory none])
  | .none, 5 => some (system 0x0FC7 (some 5) (.xsaves (isWide m)) [.memory none])
  | .none, 6 => some (system 0x0FC7 (some 6) .vmptrld [.memory none])
  | .none, 7 => some (system 0x0FC7 (some 7) .vmptrst [.memory none])
  | .narrow, 6 => some (system 0x0FC7 (some 6) .vmclear [.memory none])
  | .f3, 6 => some (system 0x0FC7 (some 6) .vmxon [.memory none])
  | _, _ => none

/-- Operations of 0F C7 on a register that F3 selects. -/
def processorRegister (m : Mode) : Nat → Option Form
  | 6 => longOnly m (system 0x0FC7 (some 6) .senduipi [.direct .qword])
  | 7 => some (sizedSystem 0x0FC7 (some 7) m.native .rdpid [.direct m.native])
  | _ => none

/-- Products and hashes over a run of memory, which are always repeated. -/
def digestOperation : Selector → Nat → Option SystemOperation
  | .f3, 0x00 => some .montmul
  | .f3, 0x08 => some .xsha1
  | .f3, 0x10 => some .xsha256
  | _, _ => none

/-- Random numbers, and ciphers over a run of memory, which are always repeated. -/
def cipherOperation : Selector → Nat → Option SystemOperation
  | .none, 0x00 => some .xstore
  | .f3, 0x00 => some .xstore
  | .f3, 0x08 => some .xcryptecb
  | .f3, 0x10 => some .xcryptcbc
  | .f3, 0x18 => some .xcryptctr
  | .f3, 0x20 => some .xcryptcfb
  | .f3, 0x28 => some .xcryptofb
  | _, _ => none

/-- Operations that take the whole ModRM byte. The repeat byte still counts as one. -/
def runGroup (m : Mode) (opcode : Nat) (row : Selector → Nat → Option SystemOperation) :
    Entry :=
  .modRM fun x =>
    if x.isRegister then
      (row m.selector x.low).map fun o => sizedSystem opcode none m.address o []
    else
      none

/-- Fields of the structure that describes a virtual machine. -/
def machineField (m : Mode) (opcode : Nat) (o : SystemOperation) (kinds : List Kind) :
    Entry :=
  match m.selector with
  | .none => operands (sizedSystem opcode none m.native o kinds)
  | _ => .undefined

/-- Operations with a descriptor in memory that say which translations are forgotten. -/
def forget (m : Mode) (opcode : Nat) (o : SystemOperation) : Entry :=
  match m.selector with
  | .narrow => operands (sizedSystem opcode none m.native o [.reg m.native, .memory none])
  | _ => .undefined

/-- Stores to the shadow stack. -/
def shadowStore (m : Mode) (opcode : Nat) (o : SystemOperation) : Form :=
  sizedSystem opcode none m.whole o [.memory (some m.whole), .reg m.whole]

end OpcodeMap
end JumpHooks
