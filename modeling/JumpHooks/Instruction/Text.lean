import JumpHooks.Instruction.Basic
import JumpHooks.Bitness
import JumpHooks.Text.Number

/-!
# Instruction text

An instruction is written as words for its optional bytes, the mnemonic and the operands.
How numbers look and what stands between operands is the style; there is one for listings
and one for comments in C++ source. The words are those of the general purpose instructions.
-/

namespace JumpHooks

/-- How numbers from ten on are marked as hexadecimal, and how operands are separated. -/
structure TextStyle where
  capitals : Bool
  before : String
  after : String
  /-- A number never starts with a letter. -/
  guarded : Bool
  separator : String

namespace TextStyle

/-- Capital digits with the letter h behind them. -/
def listing : TextStyle :=
  ⟨true, "", "h", true, ","⟩

/-- Small digits with 0x in front of them, and room between operands. -/
def comment : TextStyle :=
  ⟨false, "0x", "", false, ", "⟩

def startsWithLetter (digits : String) : Bool :=
  digits.toList.head?.any Char.isAlpha

/-- A number with at least `width` digits. Numbers below ten are one digit always. -/
def number (style : TextStyle) (width : Nat) (v : UInt64) : String :=
  if v < 10 then
    toString v.toNat
  else
    let digits := if style.capitals then Text.upperHex v.toNat else Text.hex v.toNat
    let digits := Text.padded width digits
    let guard := if style.guarded && startsWithLetter digits then "0" else ""
    style.before ++ guard ++ digits ++ style.after

end TextStyle

namespace Memory

/-- An index without a base keeps its scale, so that it is not taken for a base. -/
def indexText (m : Memory) (r : Register) : String :=
  if m.scale = 1 ∧ (m.base.isSome ∨ m.address = .word) then
    r.text
  else
    r.text ++ "*" ++ toString m.scale

/-- The displacement after registers: signed, and left out when it is zero. -/
def offsetText (style : TextStyle) (m : Memory) : String :=
  let d := m.address.signed m.displacement
  if d = 0 then
    ""
  else if d < 0x8000000000000000 then
    "+" ++ style.number 0 d
  else
    "-" ++ style.number 0 (0 - d)

def addressText (style : TextStyle) (m : Memory) : String :=
  if m.isRelative then
    style.number 0 m.displacement
  else
    match m.base, m.index with
    | none, none => style.number 0 m.displacement
    | some b, none => b.text ++ m.offsetText style
    | none, some i => m.indexText i ++ m.offsetText style
    | some b, some i => b.text ++ "+" ++ m.indexText i ++ m.offsetText style

end Memory

namespace Instruction

/-- The segment of memory when the code names none. Memory that string operations write to
has a segment of its own, which does not count. -/
def defaultSegment (i : Instruction) : Segment :=
  (i.operands.findSome? Operand.defaultSegment?).getD .ds

/-- The chosen segment, if it is not what is meant anyway. An address that is only computed
has no segment. -/
def chosenSegment? (long : Bool) (i : Instruction) : Option Segment :=
  if i.form.mnemonic = .lea then
    none
  else
    i.segment.filter fun s => if long then s.isExtra else s != i.defaultSegment

/-- Once a segment is chosen, every memory operand shows its own. -/
def segmentText (long : Bool) (i : Instruction) : Operand → String
  | .destination _ => if (i.chosenSegment? long).isSome then Segment.es.text ++ ":" else ""
  | _ => ((i.chosenSegment? long).map fun s => s.text ++ ":").getD ""

/-- The size of memory in the place `k`, unless another operand gives it away. -/
def sizeText (i : Instruction) (k : Kind) : String :=
  if i.form.mnemonic.isSizeless then
    ""
  else if i.form.mnemonic.isWidening then
    k.sizeKeyword
  else if k.memoryWidth?.any fun w => i.form.kinds.any (Kind.fixesWidth w) then
    ""
  else
    k.sizeKeyword

/-- Whether an operand in the place `k` is written as the low word of its register. -/
def showsLowWord (i : Instruction) (k : Kind) : Bool :=
  match k with
  | .lowWord _ => true
  | _ => i.form.mnemonic.readsLowWords

def registerText (i : Instruction) (k : Kind) (r : Register) : String :=
  match r with
  | .general _ n => if i.showsLowWord k then (Register.general .word n).text else r.text
  | _ => r.text

/-- Jumps whose distance is one byte are marked, except for loops, which have no other. -/
def distanceText (i : Instruction) (k : Kind) : String :=
  match i.form.mnemonic, k with
  | .j _, .relative .byte _ => "short "
  | .jmp, .relative .byte _ => "short "
  | _, _ => ""

def memoryText (long : Bool) (i : Instruction) (k : Kind) (o : Operand)
    (address : String) : String :=
  i.sizeText k ++ i.segmentText long o ++ "[" ++ address ++ "]"

def operandText (style : TextStyle) (long : Bool) (i : Instruction) (k : Kind)
    (o : Operand) : String :=
  match o with
  | .register r => i.registerText k r
  | .immediate v => style.number 0 v
  | .memory m => i.memoryText long k o (m.addressText style)
  | .target w a => i.distanceText k ++ style.number (2 * w.bytes) a
  | .far w selector offset =>
      style.number (2 * w.bytes) offset ++ style.separator ++ style.number 4 selector
  | .source w => i.memoryText long k o (Register.sourceIndex w).text
  | .destination w => i.memoryText long k o (Register.destinationIndex w).text
  | .other text => text

/-- The operands that are written, with their places. The register that a string operation
implies is not, and a register multiplied into itself stands once. -/
def writtenOperands (i : Instruction) : List (Kind × Operand) :=
  let all := i.form.kinds.zip i.operands
  if i.form.mnemonic.hasImpliedRegister then
    all.filter fun x => !x.2.isRegister
  else
    match i.form.mnemonic, all with
    | .imul, [a, b, c] => if a.2 = b.2 then [a, c] else all
    | _, _ => all

def operandsText (style : TextStyle) (long : Bool) (i : Instruction) : String :=
  style.separator.intercalate
    (i.writtenOperands.map fun x => i.operandText style long x.1 x.2)

/-- Near branches that can check bounds: not loops, and not the jump with the shortest
distance. -/
def canCheckBounds (i : Instruction) : Bool :=
  match i.form.mnemonic, i.form.kinds with
  | .jmp, [.relative .byte _] => false
  | .call, _ | .jmp, _ | .ret, _ | .j _, _ => true
  | _, _ => false

/-- A jump or call through an operand. -/
def isIndirectBranch (i : Instruction) : Bool :=
  match i.form.mnemonic, i.form.kinds with
  | .call, [.rm _] => true
  | .jmp, [.rm _] => true
  | _, _ => false

def writesMemory (i : Instruction) : Bool :=
  i.operands.head?.any Operand.isMemory

/-- Stores that may end a hardware transaction. -/
def isStore (i : Instruction) : Bool :=
  [0x88, 0x89, 0xC6, 0xC7].contains i.form.opcode && i.form.mnemonic == .mov

def widthWord (i : Instruction) : String :=
  let short := i.target?.isSome && i.form.width == some .word
  if short || (i.form.mnemonic.hidesWidth && i.form.width == some .word &&
      !i.form.kinds.any Kind.showsWidth) then
    "data16 "
  else
    ""

/-- The address width, where the operands do not tell it: that of the counter of a loop, that
of an address which is written in full, and that of an address in the accumulator. -/
def hiddenAddress? (i : Instruction) : Option Width :=
  if i.form.kinds.any Kind.isAbsolute then
    i.operands.findSome? Operand.addressWidth?
  else if i.form.mnemonic.hidesAddress then
    i.form.width
  else
    i.form.mnemonic.counter?

def addressWord (long : Bool) (i : Instruction) : String :=
  match i.hiddenAddress? with
  | some .word => "addr16 "
  | some .dword => if long then "addr32 " else ""
  | _ => ""

def transactionWord (i : Instruction) : String :=
  let atomic := i.lock && i.form.mnemonic != .cmpxchg16b
  let exchanges := i.writesMemory && (atomic || i.form.mnemonic == .xchg)
  match i.repeating with
  | some .f2 => if exchanges then "xacquire " else ""
  | some .f3 => if exchanges || (i.writesMemory && i.isStore) then "xrelease " else ""
  | none => ""

/-- Words for a segment byte in front of a branch. -/
def branchWord (i : Instruction) : String :=
  match i.form.mnemonic, i.segment with
  | .j _, some .cs => "hint-not-taken "
  | .j _, some .ds => "hint-taken "
  | _, some .ds => if i.isIndirectBranch then "notrack " else ""
  | _, _ => ""

def isPlainReturn (i : Instruction) : Bool :=
  i.form.mnemonic == .ret && i.form.kinds.isEmpty

def repeatWord (i : Instruction) : String :=
  match i.repeating with
  | some .f2 =>
      if i.form.mnemonic.isString then "repne " else if i.canCheckBounds then "bnd " else ""
  | some .f3 =>
      if i.form.mnemonic.isStringTest then
        "repe "
      else if i.form.mnemonic.isRepeatable || i.isPlainReturn then
        "rep "
      else
        ""
  | none => ""

def bytesInFront (long : Bool) (i : Instruction) : String :=
  i.widthWord ++ i.addressWord long ++ i.transactionWord ++
    (if i.lock then "lock " else "") ++ i.branchWord ++ i.repeatWord

/-- The exchange of an accumulator with itself does nothing, and is written as that
exchange only where `nop` would not show its width. -/
def isWideNop (i : Instruction) : Bool :=
  i.form.mnemonic == .nop && i.form.kinds.isEmpty && i.form.width != some .dword

def bodyText (style : TextStyle) (long : Bool) (i : Instruction) : String :=
  if i.isWideNop then
    let r := (Register.accumulator (i.form.width.getD .dword)).text
    "xchg " ++ r ++ style.separator ++ r
  else
    let operands := i.operandsText style long
    if operands.isEmpty then
      i.form.mnemonic.text
    else
      i.form.mnemonic.text ++ " " ++ operands

def text (style : TextStyle) (bitness : Bitness) (i : Instruction) : String :=
  i.bytesInFront bitness.is64Bit ++ i.bodyText style bitness.is64Bit

end Instruction

end JumpHooks
