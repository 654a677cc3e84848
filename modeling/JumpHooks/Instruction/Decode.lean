import JumpHooks.Bytes.Reader
import JumpHooks.Instruction.Disassembler
import JumpHooks.Instruction.OpcodeMap.Primary
import JumpHooks.Instruction.OpcodeMap.Secondary
import JumpHooks.Instruction.OpcodeMap.Tertiary
import JumpHooks.Bitness

/-!
# Decoding

An instruction is at most fifteen bytes: optional bytes in front, an opcode, an addressing
part and numbers. It is read relative to its end and placed afterwards, so what bytes mean
does not depend on where they stand.

This is the decoder of the general purpose and system instructions only. The opcodes of
floating point and vector instructions (x87, MMX, SSE, AVX and what came after them) are
undefined here, so it is one disassembler among others and not the one that a whole module
needs.
-/

namespace JumpHooks

/-- The four extension bits of a REX byte. -/
structure Rex where
  wide : Bool
  reg : Bool
  index : Bool
  base : Bool

def Rex.ofByte (b : UInt8) : Rex where
  wide := b.toNat / 8 % 2 = 1
  reg := b.toNat / 4 % 2 = 1
  index := b.toNat / 2 % 2 = 1
  base := b.toNat % 2 = 1

/-- What the bytes in front of an opcode have said so far. -/
structure Prefixes where
  segment : Option Segment
  narrowOperand : Bool
  otherAddress : Bool
  lock : Bool
  /-- The later of the two repeat bytes undoes the other. -/
  repeating : Option Repeat
  rex : Option Rex

namespace Prefixes

def empty : Prefixes :=
  ⟨none, false, false, false, none, none⟩

/-- In 64-bit code a choice of one of the two extra segments is not undone. -/
def choose (long : Bool) (s : Segment) (p : Prefixes) : Prefixes :=
  if long && !s.isExtra && p.segment.any Segment.isExtra then
    { p with rex := none }
  else
    { p with segment := some s, rex := none }

/-- The bytes so far with `b` after them, or `none` when `b` begins the opcode. A REX byte
counts only if nothing but the opcode follows it. -/
def absorb (long : Bool) (b : UInt8) (p : Prefixes) : Option Prefixes :=
  if b = 0x26 then
    some (p.choose long .es)
  else if b = 0x2E then
    some (p.choose long .cs)
  else if b = 0x36 then
    some (p.choose long .ss)
  else if b = 0x3E then
    some (p.choose long .ds)
  else if b = 0x64 then
    some (p.choose long .fs)
  else if b = 0x65 then
    some (p.choose long .gs)
  else if b = 0x66 then
    some { p with narrowOperand := true, rex := none }
  else if b = 0x67 then
    some { p with otherAddress := true, rex := none }
  else if b = 0xF0 then
    some { p with lock := true, rex := none }
  else if b = 0xF2 then
    some { p with repeating := some .f2, rex := none }
  else if b = 0xF3 then
    some { p with repeating := some .f3, rex := none }
  else if long && b.toNat / 16 = 4 then
    some { p with rex := some (Rex.ofByte b) }
  else
    none

/-- Reads at most `budget` bytes, up to and including the first byte of the opcode. -/
def read (long : Bool) : (budget : Nat) → Prefixes → Reader (Prefixes × UInt8)
  | 0, _ => .fail
  | budget + 1, p =>
      .next fun b =>
        match p.absorb long b with
        | some q => read long budget q
        | none => .done (p, b)

def isWide (p : Prefixes) : Bool :=
  p.rex.any Rex.wide

def operandWidth (p : Prefixes) : Width :=
  if p.isWide then .qword else if p.narrowOperand then .word else .dword

def addressWidth (long : Bool) (p : Prefixes) : Width :=
  match long, p.otherAddress with
  | true, false => .qword
  | true, true => .dword
  | false, false => .dword
  | false, true => .word

def mode (long : Bool) (p : Prefixes) : Mode where
  long := long
  narrow := p.narrowOperand
  operand := p.operandWidth
  address := p.addressWidth long
  extended := p.rex.any Rex.base
  repeating := p.repeating

/-- A register number of an operand field with its extension bit. -/
def extend (p : Prefixes) (bit : Rex → Bool) (n : Nat) : Nat :=
  if p.rex.any bit then n + 8 else n

def register (p : Prefixes) (w : Width) (bit : Rex → Bool) (n : Nat) : Register :=
  .ofNumber w p.rex.isSome (p.extend bit n)

end Prefixes

namespace Decode

/-- A displacement, extended to the width of the address. Full displacements of 64-bit
addresses have four bytes. -/
def displacement (address : Width) : DisplacementSize → Reader UInt64
  | .none => .done 0
  | .byte => do
      let v ← Reader.number 1
      return address.truncate (Width.byte.signed v)
  | .full => do
      let stored := Mode.stored address
      let v ← Reader.number stored.bytes
      return address.truncate (stored.signed v)

/-- The displacement that follows a ModRM byte with these top bits. -/
def displacementSize : (mod : Nat) → DisplacementSize
  | 0 => .none
  | 1 => .byte
  | _ => .full

def memoryAt (address : Width) (base index : Option Register) (scale : Nat)
    (size : DisplacementSize) : Reader Memory := do
  let d ← displacement address size
  return ⟨address, base, index, scale, d, size⟩

/-- The registers of a 16-bit address. -/
def wordPair : Nat → Option Register × Option Register
  | 0 => (some .bx, some .si)
  | 1 => (some .bx, some .di)
  | 2 => (some .bp, some .si)
  | 3 => (some .bp, some .di)
  | 4 => (some .si, none)
  | 5 => (some .di, none)
  | 6 => (some .bp, none)
  | _ => (some .bx, none)

/-- Memory with a 16-bit address: a fixed list of register pairs. -/
def wordMemory (x : ModRM) : Reader Memory :=
  if x.mod = 0 ∧ x.rm = 6 then
    memoryAt .word none none 1 .full
  else
    let pair := wordPair x.rm
    memoryAt .word pair.1 pair.2 1 (displacementSize x.mod)

/-- The scale of an index, from the top bits of the byte that names it. -/
def scaleOf : Nat → Nat
  | 0 => 1
  | 1 => 2
  | 2 => 4
  | _ => 8

/-- Memory described by a byte of its own with scale, index and base. -/
def scaledMemory (p : Prefixes) (address : Width) (x : ModRM) : Reader Memory := do
  let b ← Reader.byte
  let sib := ModRM.ofByte b
  let number := p.extend Rex.index sib.reg
  let index := if number = 4 then none else some (Register.ofNumber address true number)
  let scale := scaleOf sib.mod
  if x.mod = 0 ∧ sib.rm = 5 then
    memoryAt address none index scale .full
  else
    memoryAt address (some (p.register address Rex.base sib.rm)) index scale
      (displacementSize x.mod)

def memory (long : Bool) (p : Prefixes) (x : ModRM) : Reader Memory :=
  let address := p.addressWidth long
  if address = .word then
    wordMemory x
  else if x.rm = 4 then
    scaledMemory p address x
  else if x.mod = 0 ∧ x.rm = 5 then
    memoryAt address (if long then some (.instructionPointer address) else none) none 1 .full
  else
    memoryAt address (some (p.register address Rex.base x.rm)) none 1
      (displacementSize x.mod)

/-- The part of the ModRM byte that names a register or memory. -/
inductive Place where
  | register (number : Nat)
  | memory (m : Memory)

def place (long : Bool) (p : Prefixes) (x : ModRM) : Reader Place :=
  if x.mod = 3 then
    .done (.register x.rm)
  else
    (memory long p x).bind fun m => .done (.memory m)

/-- What is known before the numbers at the end of an instruction are read. -/
structure Fields where
  long : Bool
  prefixes : Prefixes
  opcode : Nat
  reg : Nat
  place : Place

namespace Fields

def direct (x : Fields) (w : Width) : Reader Operand :=
  match x.place with
  | .register n => .done (.register (x.prefixes.register w Rex.base n))
  | .memory _ => .fail

def indirect (x : Fields) : Reader Operand :=
  match x.place with
  | .register _ => .fail
  | .memory m => .done (.memory m)

def either (x : Fields) (w : Width) : Reader Operand :=
  match x.place with
  | .register n => .done (.register (x.prefixes.register w Rex.base n))
  | .memory m => .done (.memory m)

def operand (x : Fields) : Kind → Reader Operand
  | .reg w => .done (.register (x.prefixes.register w Rex.reg x.reg))
  | .rm w => x.either w
  | .selector w => x.either w
  | .lowWord w => x.either w
  | .memory _ => x.indirect
  | .pointer _ => x.indirect
  | .pair _ => x.indirect
  | .direct w => x.direct w
  | .opcode w => .done (.register (x.prefixes.register w Rex.base (x.opcode % 8)))
  | .accumulator w => .done (.register (.accumulator w))
  | .fixed r => .done (.register r)
  | .segment =>
      match Segment.ofNumber? x.reg with
      | some s => .done (.register (.segment s))
      | none => .fail
  | .control => .done (.register (.controlOfNumber (x.prefixes.extend Rex.reg x.reg)))
  | .debug => .done (.register (.debugOfNumber (x.prefixes.extend Rex.reg x.reg)))
  | .immediate stored value => do
      let v ← Reader.number stored.bytes
      return .immediate (value.truncate (stored.signed v))
  | .one => .done (.immediate 1)
  | .relative stored target => do
      let v ← Reader.number stored.bytes
      return .target target (stored.signed v)
  | .farPointer w => do
      let offset ← Reader.number w.bytes
      let selector ← Reader.number 2
      return .far w selector offset
  | .absolute _ => do
      let address := x.prefixes.addressWidth x.long
      let offset ← Reader.number address.bytes
      return .memory ⟨address, none, none, 1, offset, .full⟩
  | .table => do
      let address := x.prefixes.addressWidth x.long
      return .memory ⟨address, some (.tableBase address), none, 1, 0, .none⟩
  | .source => .done (.source (x.prefixes.addressWidth x.long))
  | .destination => .done (.destination (x.prefixes.addressWidth x.long))
  | .other _ => .fail

def operands (x : Fields) : List Kind → Reader (List Operand)
  | [] => .done []
  | k :: ks => do
      let o ← x.operand k
      let os ← operands x ks
      return o :: os

/-- Whether a lock byte may stand before an instruction of this form and operands. -/
def allowsLock (form : Form) (operands : List Operand) : Bool :=
  form.mnemonic.isLockable && operands.head?.any Operand.isMemory

def instruction (x : Fields) (form : Form) : Reader Instruction := do
  let operands ← x.operands form.kinds
  let p := x.prefixes
  if p.lock && !allowsLock form operands then
    .fail
  else
    -- A repeat byte that is part of the opcode is not a repeat byte any more
    return ⟨form, operands, p.segment, p.lock,
      if form.marker = p.repeating then none else p.repeating⟩

end Fields

/-- The opcode map entry and the last opcode byte, after the first opcode byte. -/
def entry (m : Mode) (first : UInt8) : Reader (Entry × Nat) :=
  if first = 0x0F then
    .next fun second =>
      if second = 0x38 then
        .next fun third => .done (OpcodeMap.tertiary m third.toNat, third.toNat)
      else if second = 0x3A then
        .next fun third => .done (OpcodeMap.immediateTertiary m third.toNat, third.toNat)
      else
        .done (OpcodeMap.secondary m second.toNat, second.toNat)
  else
    .done (OpcodeMap.primary m first.toNat, first.toNat)

/-- One instruction, relative to its end. -/
def instruction (long : Bool) : Reader Instruction := do
  let (p, first) ← Prefixes.read long 15 Prefixes.empty
  let (e, opcode) ← entry (p.mode long) first
  match e with
  | .undefined => .fail
  | .plain form => Fields.instruction ⟨long, p, opcode, 0, .register 0⟩ form
  | .modRM choose => do
      let x := ModRM.ofByte (← Reader.byte)
      match choose x with
      | none => .fail
      | some form => do
          let place ← place long p x
          Fields.instruction ⟨long, p, opcode, x.reg, place⟩ form
  | .registers choose => do
      let x := ModRM.ofByte (← Reader.byte)
      match choose (p.extend Rex.reg x.reg) with
      | none => .fail
      | some form => Fields.instruction ⟨long, p, opcode, x.reg, .register x.rm⟩ form

end Decode

/-- The general purpose instruction at the start of `bytes`, which stand at `address`. -/
def Placed.decode? (bitness : Bitness) (address : UInt64) (bytes : List UInt8) :
    Option Placed :=
  let window := bytes.take Instruction.maxLength
  match (Decode.instruction bitness.is64Bit).run window with
  | none => none
  | some (i, rest) =>
      let length := window.length - rest.length
      some ⟨address, length, i.place (address + UInt64.ofNat length)⟩

end JumpHooks
