import JumpHooks.Error
import JumpHooks.Instruction.Named
import JumpHooks.Instruction.Text

/-!
# Hook stubs

A stub loads the address of a handler and jumps to it, then fills up with `nop` so that the
code behind it begins on an instruction boundary. The address is left zero; it is stored
where the field says when the hook is applied.

Only three instructions occur in a stub, so each is written down with the bytes that an encoder
gives for it. An encoder at large, the division of its output at the offsets of the
instructions, and the error for an instruction that has no encoding are left out: these three
are always encoded.
-/

namespace JumpHooks

/-- The `count` low bytes of a number, lowest first. -/
def littleEndian : (count : Nat) → UInt64 → List UInt8
  | 0, _ => []
  | count + 1, v => v.toUInt8 :: littleEndian count (v / 0x100)

/-- An instruction with its encoding. -/
structure Encoded where
  instruction : Instruction
  code : List UInt8
deriving DecidableEq, Repr

structure HookStub where
  bitness : Bitness
  body : List Encoded
deriving DecidableEq, Repr

namespace HookStub

/-- The shortest jump to a fixed address that needs no memory. -/
def jump : Bitness → List Encoded
  | .x64 => [
      ⟨.moveImmediate .qword .rax 0, 0x48 :: 0xB8 :: littleEndian 8 0⟩,
      ⟨.jump .qword .rax, [0xFF, 0xE0]⟩]
  | .x86 => [
      ⟨.moveImmediate .dword .eax 0, 0xB8 :: littleEndian 4 0⟩,
      ⟨.jump .dword .eax, [0xFF, 0xE0]⟩]

def encodedSize (body : List Encoded) : Nat :=
  (body.map fun e => e.code.length).foldr (· + ·) 0

/-- The bytes that a hook needs at least. -/
def required (b : Bitness) : Nat :=
  encodedSize (jump b)

def padding : Encoded :=
  ⟨.nop, [0x90]⟩

def assemble (b : Bitness) (size : Nat) : Except Error HookStub :=
  if size < required b then
    .error (.precondition (.stubTooSmall b (required b) size))
  else
    .ok ⟨b, jump b ++ List.replicate (size - required b) padding⟩

def size (s : HookStub) : Nat :=
  encodedSize s.body

def bytes (s : HookStub) : List UInt8 :=
  s.body.flatMap Encoded.code

/-- Where the handler's address starts in a stub. -/
def fieldStart : Bitness → Nat
  | .x64 => 2
  | .x86 => 1

def fieldLength (b : Bitness) : Nat :=
  b.pointer.bytes

/-- The statement that stores the handler's address into an array with the stub. -/
def copyStatement (s : HookStub) : String :=
  s!"std::memcpy(&code[{fieldStart s.bitness}], &handler, {fieldLength s.bitness});"

/-- The bytes with the address of a handler in its field. -/
def withHandler (s : HookStub) (handler : UInt64) : List UInt8 :=
  s.bytes.take (fieldStart s.bitness) ++
    littleEndian (fieldLength s.bitness) handler ++
    s.bytes.drop (fieldStart s.bitness + fieldLength s.bitness)

end HookStub
end JumpHooks
