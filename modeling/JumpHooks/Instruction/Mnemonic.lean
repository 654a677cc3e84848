import JumpHooks.Instruction.SystemOperation

/-!
# Mnemonics

The operations of the general purpose instruction set. Families that differ only in a
condition, in a hint or in the width of a string element are one constructor with a
parameter, and so are the operations of the system. All other operations, those on floating
point numbers and on vectors among them, are known by name only.
-/

namespace JumpHooks

inductive Condition where
  | o
  | no
  | b
  | ae
  | e
  | ne
  | be
  | a
  | s
  | ns
  | p
  | np
  | l
  | ge
  | le
  | g
deriving DecidableEq, Repr

namespace Condition

def text : Condition → String
  | o => "o"
  | no => "no"
  | b => "b"
  | ae => "ae"
  | e => "e"
  | ne => "ne"
  | be => "be"
  | a => "a"
  | s => "s"
  | ns => "ns"
  | p => "p"
  | np => "np"
  | l => "l"
  | ge => "ge"
  | le => "le"
  | g => "g"

/-- The condition in the low four bits of an opcode. -/
def ofNumber : Nat → Condition
  | 0 => o
  | 1 => no
  | 2 => b
  | 3 => ae
  | 4 => e
  | 5 => ne
  | 6 => be
  | 7 => a
  | 8 => s
  | 9 => ns
  | 10 => p
  | 11 => np
  | 12 => l
  | 13 => ge
  | 14 => le
  | _ => g

end Condition

/-- What a prefetch says about how the memory will be used. -/
inductive PrefetchHint where
  | unspecified
  | nta
  | t0
  | t1
  | t2
  | w
  | wt1
  | it0
  | it1
  | reserved
deriving DecidableEq, Repr

def PrefetchHint.text : PrefetchHint → String
  | unspecified => ""
  | nta => "nta"
  | t0 => "t0"
  | t1 => "t1"
  | t2 => "t2"
  | w => "w"
  | wt1 => "wt1"
  | it0 => "it0"
  | it1 => "it1"
  | reserved => "_reserved"

inductive Mnemonic where
  | aaa | aad | aadd | aam | aand | aas | adc | adcx | add | adox | and | aor | arpl | axor
  | bound | bsf | bsr | bswap | bt | btc | btr | bts | call | callFar | cbw | cdq | cdqe
  | clc | cld | cli | cmc | cmov (c : Condition) | cmp | cmps (w : Width) | cmpxchg
  | cmpxchg8b | cmpxchg16b | cpuid | cqo | crc32 | cwd | cwde | daa | das | dec | div
  | endbr32 | endbr64 | enter | fwait | hlt | idiv | imul | inp | inc | ins (w : Width)
  | int | int1 | int3 | into | iret (w : Width) | j (c : Condition) | jcxz (w : Width)
  | jmp | jmpFar | lahf | lds | lea | leave | les | lfs | lgs | lods (w : Width)
  | loop (counter : Width) | loope (counter : Width) | loopne (counter : Width) | lss
  | lzcnt | mov | movbe | movdir64b | movdiri | movnti | movs (w : Width) | movsx | movsxd
  | movzx | mul | neg | nop | not | or | out | outs (w : Width) | pause | pop
  | popa (w : Width) | popcnt | popf (w : Width) | prefetch (hint : PrefetchHint) | push
  | pusha (w : Width) | pushf (w : Width) | rcl | rcr | rdrand | rdseed | rdtsc | rdtscp
  | ret | retFar | rol | ror | sahf | sal | salc | sar | sbb | scas (w : Width)
  | set (c : Condition) | shl | shld | shr | shrd | stc | std | sti | stos (w : Width)
  | sub | system (o : SystemOperation) | test | tzcnt | ud0 | ud1 | ud2 | xadd | xchg
  | xlat | xor
  /-- An operation outside the general purpose instruction set. -/
  | other (name : String)
deriving DecidableEq, Repr

namespace Mnemonic

/-- The ending of a mnemonic that names its operand width only when it is not a word. -/
def wideEnding : Width → String
  | .word => ""
  | w => w.letter

def text : Mnemonic → String
  | aaa => "aaa"
  | aad => "aad"
  | aadd => "aadd"
  | aam => "aam"
  | aand => "aand"
  | aas => "aas"
  | adc => "adc"
  | adcx => "adcx"
  | add => "add"
  | adox => "adox"
  | and => "and"
  | aor => "aor"
  | arpl => "arpl"
  | axor => "axor"
  | bound => "bound"
  | bsf => "bsf"
  | bsr => "bsr"
  | bswap => "bswap"
  | bt => "bt"
  | btc => "btc"
  | btr => "btr"
  | bts => "bts"
  | call => "call"
  | callFar => "call far"
  | cbw => "cbw"
  | cdq => "cdq"
  | cdqe => "cdqe"
  | clc => "clc"
  | cld => "cld"
  | cli => "cli"
  | cmc => "cmc"
  | cmov c => "cmov" ++ c.text
  | cmp => "cmp"
  | cmps w => "cmps" ++ w.letter
  | cmpxchg => "cmpxchg"
  | cmpxchg8b => "cmpxchg8b"
  | cmpxchg16b => "cmpxchg16b"
  | cpuid => "cpuid"
  | cqo => "cqo"
  | crc32 => "crc32"
  | cwd => "cwd"
  | cwde => "cwde"
  | daa => "daa"
  | das => "das"
  | dec => "dec"
  | div => "div"
  | endbr32 => "endbr32"
  | endbr64 => "endbr64"
  | enter => "enter"
  | fwait => "fwait"
  | hlt => "hlt"
  | idiv => "idiv"
  | imul => "imul"
  | inp => "in"
  | inc => "inc"
  | ins w => "ins" ++ w.letter
  | int => "int"
  | int1 => "int1"
  | int3 => "int3"
  | into => "into"
  | iret w => "iret" ++ wideEnding w
  | j c => "j" ++ c.text
  | jcxz .word => "jcxz"
  | jcxz .qword => "jrcxz"
  | jcxz _ => "jecxz"
  | jmp => "jmp"
  | jmpFar => "jmp far"
  | lahf => "lahf"
  | lds => "lds"
  | lea => "lea"
  | leave => "leave"
  | les => "les"
  | lfs => "lfs"
  | lgs => "lgs"
  | lods w => "lods" ++ w.letter
  | loop _ => "loop"
  | loope _ => "loope"
  | loopne _ => "loopne"
  | lss => "lss"
  | lzcnt => "lzcnt"
  | mov => "mov"
  | movbe => "movbe"
  | movdir64b => "movdir64b"
  | movdiri => "movdiri"
  | movnti => "movnti"
  | movs w => "movs" ++ w.letter
  | movsx => "movsx"
  | movsxd => "movsxd"
  | movzx => "movzx"
  | mul => "mul"
  | neg => "neg"
  | nop => "nop"
  | not => "not"
  | or => "or"
  | out => "out"
  | outs w => "outs" ++ w.letter
  | pause => "pause"
  | pop => "pop"
  | popa w => "popa" ++ wideEnding w
  | popcnt => "popcnt"
  | popf w => "popf" ++ wideEnding w
  | prefetch hint => "prefetch" ++ hint.text
  | push => "push"
  | pusha w => "pusha" ++ wideEnding w
  | pushf w => "pushf" ++ wideEnding w
  | rcl => "rcl"
  | rcr => "rcr"
  | rdrand => "rdrand"
  | rdseed => "rdseed"
  | rdtsc => "rdtsc"
  | rdtscp => "rdtscp"
  | ret => "ret"
  | retFar => "ret far"
  | rol => "rol"
  | ror => "ror"
  | sahf => "sahf"
  | sal => "shl"
  | salc => "salc"
  | sar => "sar"
  | sbb => "sbb"
  | scas w => "scas" ++ w.letter
  | set c => "set" ++ c.text
  | shl => "shl"
  | shld => "shld"
  | shr => "shr"
  | shrd => "shrd"
  | stc => "stc"
  | std => "std"
  | sti => "sti"
  | stos w => "stos" ++ w.letter
  | sub => "sub"
  | system o => o.text
  | test => "test"
  | tzcnt => "tzcnt"
  | ud0 => "ud0"
  | ud1 => "ud1"
  | ud2 => "ud2"
  | xadd => "xadd"
  | xchg => "xchg"
  | xlat => "xlat"
  | xor => "xor"
  | other name => name

/-- Operations that a LOCK byte may make atomic when they write to memory. -/
def isLockable : Mnemonic → Bool
  | adc | add | and | btc | btr | bts | cmpxchg | cmpxchg8b | cmpxchg16b | dec | inc
  | neg | not | or | sbb | sub | xadd | xchg | xor => true
  | _ => false

/-- String operations, which a repeat byte repeats. -/
def isString : Mnemonic → Bool
  | cmps _ | ins _ | lods _ | movs _ | outs _ | scas _ | stos _ => true
  | _ => false

/-- String operations whose repeat byte also tests the zero flag. -/
def isStringTest : Mnemonic → Bool
  | cmps _ | scas _ => true
  | _ => false

/-- Operations that the byte F3 repeats. -/
def isRepeatable : Mnemonic → Bool
  | system o => o.isRepeatable
  | m => m.isString

/-- String operations whose register operand is never written: it is the accumulator. -/
def hasImpliedRegister : Mnemonic → Bool
  | lods _ | scas _ | stos _ => true
  | _ => false

/-- Operations written without the size of a memory operand. -/
def isSizeless : Mnemonic → Bool
  | movsxd | nop | set _ => true
  | _ => false

/-- Operations whose source may be narrower than their result, so that they always show how
wide it is in memory. -/
def isWidening : Mnemonic → Bool
  | crc32 | movsx | movzx => true
  | _ => false

/-- Operations on the low words of registers. The text shows these words, whatever registers
the encoding names. -/
def readsLowWords : Mnemonic → Bool
  | arpl => true
  | _ => false

/-- Operations that show their operand width nowhere but in front of the mnemonic. -/
def hidesWidth : Mnemonic → Bool
  | callFar | enter | jmpFar | leave | push | pop | ret | retFar => true
  | _ => false

/-- The width of the counter that a loop counts down. -/
def counter? : Mnemonic → Option Width
  | loop w | loope w | loopne w => some w
  | _ => none

/-- Operations on memory at an address whose width their operands do not tell. -/
def hidesAddress : Mnemonic → Bool
  | system o => o.hidesAddress
  | _ => false

end Mnemonic
end JumpHooks
