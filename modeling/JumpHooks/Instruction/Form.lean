import JumpHooks.Instruction.Mnemonic
import JumpHooks.Text.Number

/-!
# Instruction forms

A form is one row of the opcode map: the opcode with its extension digit, the operation, and
for every operand where it is encoded and how wide it is. Two encodings of the same
operation, such as `89 /r` and `8B /r`, are different forms. The places that only instructions
outside the general purpose set have are known by name.
-/

namespace JumpHooks

/-- The two bytes that repeat a string operation. In front of other operations they have
other meanings. -/
inductive Repeat where
  | f2
  | f3
deriving DecidableEq, Repr

/-- Where an operand is encoded. -/
inductive Kind where
  /-- Chosen by the register field of the ModRM byte. -/
  | reg (w : Width)
  /-- A register or memory, chosen by the rest of the ModRM byte. -/
  | rm (w : Width)
  /-- As `rm`, for a word that is stored: memory is always a word, and a register is filled. -/
  | selector (w : Width)
  /-- As `rm`, for a word that is read: memory is always a word, and of a register its low
  word counts. -/
  | lowWord (w : Width)
  /-- As `rm`, but only memory is allowed; a width is given if the text shows it. -/
  | memory (w : Option Width)
  /-- As `rm`, but only memory is allowed: a selector with an offset of this width. -/
  | pointer (offset : Width)
  /-- As `rm`, but only memory is allowed: two numbers of this width. -/
  | pair (w : Width)
  /-- As `rm`, but only a register is allowed. -/
  | direct (w : Width)
  /-- Chosen by the low three bits of the opcode. -/
  | opcode (w : Width)
  | accumulator (w : Width)
  | fixed (r : Register)
  /-- A segment register, chosen by the register field of the ModRM byte. -/
  | segment
  /-- A control register, chosen by the register field of the ModRM byte. -/
  | control
  /-- A debug register, chosen by the register field of the ModRM byte. -/
  | debug
  /-- A number stored in `stored` bytes and sign extended to `value`. -/
  | immediate (stored value : Width)
  | one
  /-- A distance stored in `stored` bytes, from the next instruction to a target address. -/
  | relative (stored target : Width)
  | farPointer (offset : Width)
  /-- Memory at an address that follows the opcode. -/
  | absolute (w : Width)
  /-- The look-up table of `xlat`. -/
  | table
  | source
  | destination
  /-- A place that no general purpose instruction has. -/
  | other (name : String)
deriving DecidableEq, Repr

/-- A row of the opcode map. The marker is the repeat byte that is part of the opcode. -/
structure Form where
  marker : Option Repeat
  opcode : Nat
  digit : Option Nat
  width : Option Width
  mnemonic : Mnemonic
  kinds : List Kind
deriving DecidableEq, Repr

namespace Kind

/-- Whether the operand is a register that tells how wide memory beside it is. -/
def fixesWidth (w : Width) : Kind → Bool
  | reg v => v == w
  | accumulator v => v == w
  | _ => false

/-- The width of memory in this place, if its text may show one. -/
def memoryWidth? : Kind → Option Width
  | rm w => some w
  | memory w => w
  | pointer w => some w
  | _ => none

/-- The size of memory in this place, as it is written. -/
def sizeKeyword : Kind → String
  | rm w => w.keyword
  | memory (some w) => w.keyword
  | pointer w => w.pointerKeyword
  | pair w => w.pairKeyword
  | _ => ""

/-- Whether the text of the operand tells its width. -/
def showsWidth : Kind → Bool
  | rm _ => true
  | memory _ => true
  | pointer _ => true
  | opcode _ => true
  | _ => false

def isAbsolute : Kind → Bool
  | absolute _ => true
  | _ => false

/-- The place in the name of a form, for a string operation with elements of width `element`. -/
def name (element : Width) : Kind → String
  | reg w => "r" ++ toString w.bits
  | rm w => "rm" ++ toString w.bits
  | selector .word => "rm16"
  | selector w => "r" ++ toString w.bits ++ "m16"
  | lowWord .word => "rm16"
  | lowWord w => "r" ++ toString w.bits ++ "m16"
  | memory none => "m"
  | memory (some w) => "m" ++ toString w.bits
  | pointer w => "m16" ++ toString w.bits
  | pair w => "m" ++ toString w.bits ++ toString w.bits
  | direct w => "r" ++ toString w.bits
  | opcode w => "r" ++ toString w.bits
  | accumulator w => (Register.accumulator w).name
  | fixed r => r.name
  | segment => "Sreg"
  | control => "cr"
  | debug => "dr"
  | immediate stored _ => "imm" ++ toString stored.bits
  | one => "1"
  | relative stored target => "rel" ++ toString stored.bits ++ "_" ++ toString target.bits
  | farPointer w => "ptr16" ++ toString w.bits
  | absolute w => "moffs" ++ toString w.bits
  | table => "m8"
  | source => "m" ++ toString element.bits
  | destination => "m" ++ toString element.bits
  | other name => name

end Kind

namespace Form

def capitalized (s : String) : String :=
  match s.toList with
  | [] => ""
  | c :: cs => String.ofList (c.toUpper :: cs)

/-- The mnemonic in the name of the form, which tells apart what the text does not. -/
def stem (f : Form) : String :=
  let letter := (f.width.map Width.letter).getD ""
  match f.mnemonic, f.kinds with
  | .callFar, _ => "call"
  | .enter, _ => "enter" ++ letter
  | .fwait, _ => "wait"
  | .iret w, _ => "iret" ++ w.letter
  | .jmpFar, _ => "jmp"
  | .leave, _ => "leave" ++ letter
  | .nop, [] => "nop" ++ letter
  | .nop, [_, _] => "reservednop"
  | .pop, [.fixed _] => "pop" ++ letter
  | .popa w, _ => "popa" ++ w.letter
  | .popf w, _ => "popf" ++ w.letter
  | .push, [.fixed _] => "push" ++ letter
  | .push, [.immediate .word .word] => "push"
  | .push, [.immediate _ _] => "push" ++ letter
  | .pusha w, _ => "pusha" ++ w.letter
  | .pushf w, _ => "pushf" ++ w.letter
  | .ret, _ => "retn" ++ letter
  | .retFar, _ => "retf" ++ letter
  | .sal, _ => "sal"
  | m, _ => m.text

/-- What tells a form apart from another one with the same operands. -/
def ending (f : Form) : List String :=
  match f.mnemonic, f.digit with
  | .loop w, _ => [(Register.counter w).name]
  | .loope w, _ => [(Register.counter w).name]
  | .loopne w, _ => [(Register.counter w).name]
  | .nop, none => if f.kinds.length = 2 then [Text.padded 4 (Text.upperHex f.opcode)] else []
  | .test, some 1 => [Text.upperHex f.opcode ++ "r1"]
  | _, _ => if f.opcode = 0x82 then ["82"] else []

/-- The operation and its operand places, as in `Mov_r32_rm32`. -/
def name (f : Form) : String :=
  let places := f.kinds.map (Kind.name (f.width.getD .byte))
  "_".intercalate (capitalized f.stem :: places ++ f.ending)

/-- Near call with a distance of full width. -/
def isDirectCall (f : Form) : Bool :=
  f.mnemonic == .call &&
    (f.kinds == [.relative .dword .dword] || f.kinds == [.relative .dword .qword])

theorem kinds_of_isDirectCall {f : Form} (h : f.isDirectCall = true) :
    f.kinds = [.relative .dword .dword] ∨ f.kinds = [.relative .dword .qword] := by
  unfold isDirectCall at h
  rw [Bool.and_eq_true, Bool.or_eq_true] at h
  exact h.2.imp eq_of_beq eq_of_beq

/-- The one byte breakpoint that compilers put between functions. -/
def isPadding (f : Form) : Bool :=
  f.mnemonic == .int3

end Form
end JumpHooks
