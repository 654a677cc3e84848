/-!
# Widths and registers

A width is the size of an operand or of an address. General registers are numbered as in
their encoding; the four high byte registers share numbers with other byte registers and
are kept apart. The registers of the floating point, vector and mask instructions are known by
name only.
-/

namespace JumpHooks

inductive Width where
  | byte
  | word
  | dword
  | qword
deriving DecidableEq, Repr

namespace Width

def bytes : Width → Nat
  | byte => 1
  | word => 2
  | dword => 4
  | qword => 8

def bits (w : Width) : Nat :=
  8 * w.bytes

/-- The low bits of `v` that fit the width. -/
def truncate : Width → UInt64 → UInt64
  | byte, v => v % 0x100
  | word, v => v % 0x10000
  | dword, v => v % 0x100000000
  | qword, v => v

/-- A number of this width, extended to 64 bits by copies of its sign bit. -/
def signed : Width → UInt64 → UInt64
  | byte, v => if v < 0x80 then v else v - 0x100
  | word, v => if v < 0x8000 then v else v - 0x10000
  | dword, v => if v < 0x80000000 then v else v - 0x100000000
  | qword, v => v

/-- The width as the size of a memory operand is written. -/
def keyword : Width → String
  | byte => "byte ptr "
  | word => "word ptr "
  | dword => "dword ptr "
  | qword => "qword ptr "

/-- The size in memory of a selector with an offset of this width. -/
def pointerKeyword : Width → String
  | byte => ""
  | word => "dword ptr "
  | dword => "fword ptr "
  | qword => "tbyte ptr "

/-- The size in memory of two numbers of this width. -/
def pairKeyword : Width → String
  | byte => "word ptr "
  | word => "dword ptr "
  | dword => "qword ptr "
  | qword => ""

/-- The letter of the width in the mnemonics of string instructions. -/
def letter : Width → String
  | byte => "b"
  | word => "w"
  | dword => "d"
  | qword => "q"

end Width

inductive Segment where
  | es
  | cs
  | ss
  | ds
  | fs
  | gs
deriving DecidableEq, Repr

namespace Segment

def text : Segment → String
  | es => "es"
  | cs => "cs"
  | ss => "ss"
  | ds => "ds"
  | fs => "fs"
  | gs => "gs"

/-- The segment with this number in an operand field. -/
def ofNumber? : Nat → Option Segment
  | 0 => some es
  | 1 => some cs
  | 2 => some ss
  | 3 => some ds
  | 4 => some fs
  | 5 => some gs
  | _ => none

/-- The two segments that 64-bit code can choose. -/
def isExtra : Segment → Bool
  | fs => true
  | gs => true
  | _ => false

end Segment

inductive Register where
  | general (width : Width) (number : Fin 16)
  | highByte (number : Fin 4)
  | segment (name : Segment)
  | control (number : Fin 16)
  | debug (number : Fin 16)
  | instructionPointer (width : Width)
  /-- A register that is named by instructions outside the general purpose set only. -/
  | other (name : String)
deriving DecidableEq, Repr

namespace Register

def wordStem : Fin 16 → String
  | 0 => "ax"
  | 1 => "cx"
  | 2 => "dx"
  | 3 => "bx"
  | 4 => "sp"
  | 5 => "bp"
  | 6 => "si"
  | 7 => "di"
  | n => "r" ++ toString n.val

def byteStem : Fin 16 → String
  | 0 => "al"
  | 1 => "cl"
  | 2 => "dl"
  | 3 => "bl"
  | n => wordStem n ++ (if n < 8 then "l" else "b")

def text : Register → String
  | general .byte n => byteStem n
  | general .word n => wordStem n ++ (if n < 8 then "" else "w")
  | general .dword n => if n < 8 then "e" ++ wordStem n else wordStem n ++ "d"
  | general .qword n => if n < 8 then "r" ++ wordStem n else wordStem n
  | highByte 0 => "ah"
  | highByte 1 => "ch"
  | highByte 2 => "dh"
  | highByte 3 => "bh"
  | segment s => s.text
  | control n => "cr" ++ toString n.val
  | debug n => "dr" ++ toString n.val
  | instructionPointer .qword => "rip"
  | instructionPointer .dword => "eip"
  | instructionPointer _ => "ip"
  | other name => name

/-- The register in capitals. The low bytes of the numbered registers end in L here. -/
def name : Register → String
  | general .byte n =>
      if n < 8 then (byteStem n).map Char.toUpper else (wordStem n).map Char.toUpper ++ "L"
  | r => r.text.map Char.toUpper

def all : List Register :=
  ([.byte, .word, .dword, .qword].flatMap fun w => (List.finRange 16).map (general w)) ++
    (List.finRange 4).map highByte ++
    [Segment.es, .cs, .ss, .ds, .fs, .gs].map segment ++
    (List.finRange 16).map control ++
    (List.finRange 16).map debug ++
    [instructionPointer .dword, instructionPointer .qword]

def ofName? (s : String) : Option Register :=
  all.find? fun r => r.name == s

/-- The general register with number `n` in an operand field. Without a REX byte the byte
registers 4 to 7 are the high halves of the first four word registers. -/
def ofNumber (w : Width) (rex : Bool) (n : Nat) : Register :=
  if w = .byte ∧ rex = false ∧ 4 ≤ n ∧ n < 8 then
    highByte (Fin.ofNat 4 (n - 4))
  else
    general w (Fin.ofNat 16 n)

def controlOfNumber (n : Nat) : Register := control (Fin.ofNat 16 n)

def debugOfNumber (n : Nat) : Register := debug (Fin.ofNat 16 n)

def accumulator (w : Width) : Register := general w 0

/-- What loops count down. -/
def counter (w : Width) : Register := general w 1

/-- Where the look-up table of `xlat` stands. -/
def tableBase (w : Width) : Register := general w 3

/-- Where string instructions read. -/
def sourceIndex (w : Width) : Register := general w 6

/-- Where string instructions write. -/
def destinationIndex (w : Width) : Register := general w 7

def bx : Register := general .word 3

def bp : Register := general .word 5

def si : Register := general .word 6

def di : Register := general .word 7

def eax : Register := general .dword 0

def ecx : Register := general .dword 1

def esp : Register := general .dword 4

def rax : Register := general .qword 0

def rcx : Register := general .qword 1

def rdx : Register := general .qword 2

def rbx : Register := general .qword 3

def rsp : Register := general .qword 4

def rdi : Register := general .qword 7

def r8 : Register := general .qword 8

def r9 : Register := general .qword 9

def cl : Register := general .byte 1

def dx : Register := general .word 2

end Register
end JumpHooks
