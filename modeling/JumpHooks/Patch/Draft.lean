import JumpHooks.Builds
import JumpHooks.Hook.Size
import JumpHooks.Patch.Cases

/-!
# Patches

A draft collects where one signature was found in the variants of one subsystem. When all
variants have been seen, it is finished into a patch: one hook for each instruction set, and
for every build the statements that apply it.
-/

namespace JumpHooks

/-- The result of a step that can fail, with the state that it leaves and what it reports.
A step that fails keeps what it has done before it failed. -/
structure Step (σ : Type) where
  state : σ
  events : List Event
  result : Except Error Unit

/-- Everything that is needed to write one patch function. -/
structure Patch where
  subsystem : Subsystem
  name : String
  doc : String
  /-- The declarations of the function's parameters. -/
  params : List String
  /-- One stub for each instruction set, or none if no code is injected. -/
  hooks : List HookStub
  targets : List Match
  x64 : List Branch
  x86 : List Branch
deriving DecidableEq, Repr

namespace Patch

def functionName (p : Patch) : String :=
  s!"MemoryPatch::{p.subsystem.name}::{p.name}"

def hook? (p : Patch) (b : Bitness) : Option HookStub :=
  p.hooks.find? fun h => h.bitness == b

def branches (p : Patch) : Bitness → List Branch
  | .x64 => p.x64
  | .x86 => p.x86

end Patch

/-- A patch under construction. `processed` holds the builds that were offered so far. -/
structure Draft where
  subsystem : Subsystem
  signature : Signature
  processed : List (Nat × Bitness)
  targets : List Match
  x64 : BuildCases
  x86 : BuildCases

namespace Draft

def new (subsystem : Subsystem) (signature : Signature) : Draft :=
  ⟨subsystem, signature, [], [], .empty .x64, .empty .x86⟩

/-- Adds a statement to the case of a build. -/
def push (d : Draft) (bitness : Bitness) (build : Nat) (statement : String) : Draft :=
  match bitness with
  | .x64 => { d with x64 := d.x64.push build statement }
  | .x86 => { d with x86 := d.x86.push build statement }

/-- Records the exemption of a variant, or the place of the signature in it. -/
def locate (d : Draft) (v : Variant) : Step Draft :=
  match d.signature.exemption v.id with
  | some statement =>
      ⟨d.push v.id.bitness v.id.build statement, [.exempt d.signature.name v.id], .ok ()⟩
  | none =>
      let events := d.signature.events v
      match d.signature.find v with
      | .error e => ⟨d, events, .error e⟩
      | .ok s =>
          let m := Match.ofSubroutine d.signature.name v s
          ⟨{ d with targets := d.targets ++ [m] },
            events ++ [.found d.signature.name v.id m.rva], .ok ()⟩

/-- Takes a variant in. A variant of this subsystem counts as processed from then on, even
if the signature is not found in it. -/
def process (d : Draft) (v : Variant) : Step Draft :=
  let key := (v.id.build, v.id.bitness)
  if v.id.subsystem ≠ d.subsystem then
    ⟨d, [], .error (.precondition (.otherSubsystem d.signature.name v.id d.subsystem))⟩
  else if d.processed.contains key then
    ⟨d, [], .error (.precondition (.processedTwice d.signature.name v.id))⟩
  else
    { d with processed := key :: d.processed }.locate v

/-- The stubs of all instruction sets; without any target there is nothing to hook. -/
def hooks (d : Draft) : Except Error (List HookStub) :=
  if d.targets.isEmpty then
    .ok []
  else
    Bitness.hookOrder.mapM fun b => HookStub.forTargets d.signature.name b d.targets

/-- The statement that writes the hook over a target. -/
def fillStatement (subsystem : Subsystem) (m : Match) : String :=
  s!"FillMem(p{subsystem.name}, 0x{Text.hex m.rva.toNat}, &code, sizeof(code));"

/-- The draft with the statements of its targets added to the cases. -/
def withFills (d : Draft) : Draft :=
  d.targets.foldl
    (fun d m => d.push m.variant.bitness m.variant.build (fillStatement d.subsystem m)) d

def unsupported : String :=
  "// 32-bit Crysis Warhead is not supported"

/-- The 32-bit cases with a placeholder for every build of Warhead, unless at most one build
is covered at all. -/
def withPlaceholders (x : BuildCases) : Except Error BuildCases :=
  if x.size ≤ 1 then
    .ok x
  else
    (Game.warhead.builds .x86).foldlM (fun x build => x.insertPlaceholder build unsupported) x

def finish (d : Draft) : Except Error Patch := do
  let hooks ← d.hooks
  let filled := d.withFills
  let x86 ← withPlaceholders filled.x86
  return {
    subsystem := d.subsystem
    name := d.signature.name
    doc := d.signature.doc
    params := [s!"void* p{d.subsystem.name}", "int gameBuild", d.signature.handler]
    hooks := hooks
    targets := d.targets
    x64 := filled.x64.branches
    x86 := x86.branches }

/-- What the events of a list of hooks report, up to the first hook that fails. -/
def hookEvents (signature : String) (targets : List Match) : List Bitness → List Event
  | [] => []
  | b :: rest =>
      match HookStub.forTargets signature b targets with
      | .error _ => HookStub.events signature b targets
      | .ok _ => HookStub.events signature b targets ++ hookEvents signature targets rest

/-- What `finish` reports. -/
def finishEvents (d : Draft) : List Event :=
  if d.targets.isEmpty then [] else hookEvents d.signature.name d.targets Bitness.hookOrder

end Draft
end JumpHooks
