import JumpHooks.Command.Arguments
import JumpHooks.Command.Layout
import JumpHooks.Image.Load
import JumpHooks.Instruction.GeneralPurpose
import JumpHooks.Patch.Generator
import JumpHooks.Source.Function
import JumpHooks.Source.Splice

/-!
# A run of the command

A run loads the selected variants of the selected subsystems, 32-bit builds first, and
writes the source text of all their patches. The output file is read and replaced at the
very end, so a run that fails has not touched it.
-/

namespace JumpHooks
namespace Command

/-- The files that a run can see, by their paths. -/
structure Files where
  read : String → Except FileFault ByteArray

/-- Why a run failed. -/
inductive Failure where
  | unknownSubsystem (name : String)
  | error (cause : Error)
  | source (fault : Source.Fault)
  | unreadableOutput (fault : FileFault)
  | outputNoText

/-- The failure in the notation of records. -/
def Failure.record : Failure → String
  | unknownSubsystem name => Text.quoted s!"'{name}' is not a known module"
  | error cause => cause.record
  | source fault => Text.quoted fault.text
  | unreadableOutput fault => fault.record
  | outputNoText =>
      Text.record "Error"
        [("kind", "InvalidData"),
          ("message", Text.quoted "stream did not contain valid UTF-8")]

/-- The exit status of a run that failed. -/
def Failure.status : Failure → Nat
  | error cause => if cause.isAbrupt then 101 else 1
  | _ => 1

/-- The outcome of a run: what it prints, and the file that it replaces. -/
structure Report where
  printed : List String
  events : List Event
  result : Except Failure (Option (String × String))

/-- The libraries of this project. Modules with floating point or vector code need another
disassembler. -/
def libraries : Image.Libraries :=
  ⟨.portable, .generalPurpose⟩

/-- The subsystems to generate patches for. -/
def subsystems (a : Arguments) : Except Failure (List Subsystem) :=
  match a.subsystem with
  | none => .ok Subsystem.patched
  | some name =>
      match Subsystem.ofName? name with
      | none => .error (.unknownSubsystem name)
      | some s => .ok [s]

/-- The variants of a subsystem, in loading order. -/
def variants (selection : Selection) (s : Subsystem) : List VariantId :=
  [Bitness.x86, .x64].flatMap fun b =>
    (selection.builds b).map fun build => ⟨s, build, b⟩

def load (l : Image.Libraries) (files : Files) (root : String) (id : VariantId) :
    Except Error Variant :=
  match modulePath? root id with
  | none => .error (.precondition (.unknownBuild id.build))
  | some path =>
      match files.read path with
      | .error fault => .error (.unreadable fault)
      | .ok file => Image.load l file id

/-- The references of those of the variants that can be loaded. -/
def referenceLines (l : Image.Libraries) (files : Files) (root : String)
    (ids : List VariantId) : List String :=
  ids.flatMap fun id =>
    match load l files root id with
    | .error _ => []
    | .ok v => v.referenceLines l.disassembler

/-- A part of a run: the source text so far, and what was printed. -/
structure Progress where
  writer : Source.Writer
  printed : List String
  events : List Event

def Progress.empty : Progress :=
  ⟨.empty, [], []⟩

/-- Writes items, if nothing is too long. -/
def Progress.write (p : Progress) (items : List Source.Item) :
    Except (Progress × Failure) Progress :=
  match p.writer.write items with
  | (w, none) => .ok { p with writer := w }
  | (w, some fault) => .error ({ p with writer := w }, .source fault)

/-- Generates and writes the patches of one subsystem. -/
def addSubsystem (l : Image.Libraries) (files : Files) (a : Arguments) (p : Progress)
    (s : Subsystem) : Except (Progress × Failure) Progress := do
  let p ← p.write (Source.subsystemHeader s)
  let ids := variants a.selection s
  let g := generate (load l files a.root) s ids
  let printed :=
    if a.references then referenceLines l files a.root (ids.take g.loaded) else []
  let p := { p with printed := p.printed ++ printed, events := p.events ++ g.events }
  match g.result with
  | .error e => .error (p, .error e)
  | .ok patches => p.write (patches.flatMap Source.patchItems)

/-- Generates and writes all patches. -/
def addAll (l : Image.Libraries) (files : Files) (a : Arguments) (all : List Subsystem) :
    Except (Progress × Failure) Progress := do
  let p ← Progress.empty.write Source.fileHeader
  all.foldlM (addSubsystem l files a) p

/-- The file to replace and its new text, or nothing if the text is to be printed. -/
def replacement (files : Files) (output : Option String) (lines : List String) :
    Except Failure (Option (String × String)) :=
  match output with
  | none => .ok none
  | some path =>
      match (files.read path).map String.fromUTF8? with
      | .error fault => .error (.unreadableOutput fault)
      | .ok none => .error .outputNoText
      | .ok (some existing) =>
          match Source.splice existing lines with
          | .error fault => .error (.source fault)
          | .ok text => .ok (some (path, text))

def run (l : Image.Libraries) (files : Files) (a : Arguments) : Report :=
  match subsystems a with
  | .error failure => ⟨[], [], .error failure⟩
  | .ok all =>
      match addAll l files a all with
      | .error (p, failure) => ⟨p.printed, p.events, .error failure⟩
      | .ok p =>
          let lines := p.writer.lines.toList
          let printed := if a.output.isSome then p.printed else p.printed ++ lines
          ⟨printed, p.events, replacement files a.output lines⟩

/-- The name and version of the program. -/
def version : String :=
  "memory-patch-gen-cli 0.1.0"

end Command
end JumpHooks
