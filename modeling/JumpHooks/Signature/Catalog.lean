import JumpHooks.Builds
import JumpHooks.Instruction.Named
import JumpHooks.Signature.Basic

/-!
# The catalog of signatures

The two functions that format a message from outside the game, and which subsystems contain
a copy of them.
-/

namespace JumpHooks

namespace GameWarning

/-- `mov eax,1000h`, a call to the stack probe, `mov eax,[...]`, `test eax,eax` and a jump
over the rest of the function. -/
def pattern32 : Pattern where
  anchor := .moveImmediate .dword .eax 0x1000
  offsets := [0]
  minimum := 14
  rules := [
    ⟨1, .form (.directCall .x86)⟩,
    ⟨2, .form (.load .dword)⟩,
    ⟨2, .register 0 (some .eax)⟩,
    ⟨3, .exact (.testSelf .dword .eax)⟩,
    ⟨4, .form (.shortJumpEqual .x86)⟩,
    ⟨4, .branch (.fromEnd 2)⟩]

/-- `test rcx,rcx`, a jump to the return, stores of the four register arguments,
`mov eax,` and a call to the stack probe. -/
def pattern64 : Pattern where
  anchor := .testSelf .qword .rcx
  offsets := [0]
  minimum := 16
  rules := [
    ⟨1, .form (.shortJumpEqual .x64)⟩,
    ⟨1, .branch (.fromEnd 1)⟩,
    ⟨2, .form (.store .qword)⟩,
    ⟨2, .register 1 (some .rcx)⟩,
    ⟨3, .form (.store .qword)⟩,
    ⟨3, .register 1 (some .rdx)⟩,
    ⟨4, .form (.store .qword)⟩,
    ⟨4, .register 1 (some .r8)⟩,
    ⟨5, .form (.store .qword)⟩,
    ⟨5, .register 1 (some .r9)⟩,
    ⟨6, .form (.moveImmediate .dword)⟩,
    ⟨6, .register 0 (some .eax)⟩,
    ⟨7, .form (.directCall .x64)⟩]

end GameWarning

namespace CryWarning

/-- Some builds save two registers before the stack probe, so the anchor may stand at
offset 2. Index 2, where the message buffer is found, differs too much to be checked. -/
def pattern32 : Pattern where
  anchor := .moveImmediate .dword .eax 0x1000
  offsets := [0, 2]
  minimum := 30
  rules := [
    ⟨1, .form (.directCall .x86)⟩,
    ⟨3, .exact (.testSelf .dword .eax)⟩,
    ⟨4, .form (.shortJumpEqual .x86)⟩,
    ⟨4, .branch (.fromEnd 2)⟩,
    ⟨5, .exact (.compareNull .eax)⟩,
    ⟨6, .form (.shortJumpEqual .x86)⟩,
    ⟨6, .branch (.fromEnd 2)⟩]

def pattern64 : Pattern where
  anchor := .spill 0x18 .r8
  offsets := [0]
  minimum := 32
  rules := [
    ⟨1, .exact (.spill 0x20 .r9)⟩,
    ⟨2, .exact (.push .qword .rbx)⟩,
    ⟨3, .exact (.push .qword .rdi)⟩,
    ⟨4, .exact (.moveImmediate .dword .eax 0x1038)⟩,
    ⟨5, .form (.directCall .x64)⟩,
    ⟨6, .exact (.subtract .qword .rsp .rax)⟩]

/-- The 64-bit network module of Warhead contains no copy. -/
def exemption (id : VariantId) : Option String :=
  if id.bitness = .x64 ∧ id.subsystem = .network ∧
      Game.ofBuild? id.build = some .warhead then
    some "// Crysis Warhead has no CryWarning in its CryNetwork"
  else
    none

end CryWarning

namespace Signature

def gameWarning : Signature where
  name := "HookGameWarning"
  doc := "Used to fix the GameWarning format string vulnerability."
  handler := "void (*handler)(const char* format, ...)"
  subsystems := [.action, .game]
  pattern := fun
    | .x86 => .ok GameWarning.pattern32
    | .x64 => .ok GameWarning.pattern64
  exemption := fun _ => none

def cryWarning : Signature where
  name := "HookCryWarning"
  doc := "Used to fix the CryWarning format string vulnerability."
  handler := "void (*handler)(int, int, const char* format, ...)"
  subsystems := [.action, .game, .network, .system]
  pattern := fun
    | .x86 => .ok CryWarning.pattern32
    | .x64 => .ok CryWarning.pattern64
  exemption := CryWarning.exemption

/-- All signatures, in the order of their patch functions. -/
def catalog : List Signature :=
  [gameWarning, cryWarning]

def ofName? (name : String) : Option Signature :=
  catalog.find? fun g => g.name == name

/-- The signatures with a target in a subsystem. -/
def inSubsystem (s : Subsystem) : List Signature :=
  catalog.filter fun g => g.subsystems.contains s

end Signature

namespace Subsystem

/-- The subsystems with a signature, in order. -/
def patched : List Subsystem :=
  all.filter fun s => Signature.catalog.any fun g => g.subsystems.contains s

end Subsystem
end JumpHooks
