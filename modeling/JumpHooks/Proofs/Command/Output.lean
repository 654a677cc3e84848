import JumpHooks.Proofs.Command.Writing
import JumpHooks.Proofs.Signature.Grammar
import Mathlib.Logic.Function.Basic

/-!
# The output file

The output file is replaced at the very end of a run. A run that meets an obstacle, wherever it
is, leaves all files as they were. Otherwise the generated part of the output file is replaced by
what each subsystem would have alone.
-/

namespace JumpHooks
namespace Command

open Source

/-!
# Files
-/

namespace Files

def text? (files : Files) (path : String) : Option String :=
  (files.read path).toOption.bind String.fromUTF8?

theorem text?_of_read {files : Files} {path text : String}
    (h : files.read path = .ok text.toUTF8) : files.text? path = some text := by
  unfold text?
  rw [h]
  exact dif_pos text.isValidUTF8

def write (files : Files) (path : String) (content : ByteArray) : Files :=
  ⟨Function.update files.read path (.ok content)⟩

/-- The files when a run that ends with this report is over. -/
def after (files : Files) (r : Report) : Files :=
  match r.result with
  | .ok (some (path, text)) => files.write path text.toUTF8
  | _ => files

end Files

/-!
# Obstacles
-/

/-- The arguments name the subsystem, or they name none and it has a signature. -/
def Selects (a : Arguments) (s : Subsystem) : Prop :=
  match a.subsystem with
  | none => s ∈ Subsystem.patched
  | some name => Subsystem.ofName? name = some s

/-- Why the output file cannot be replaced. -/
inductive Obstacle (l : Image.Libraries) (files : Files) (a : Arguments) (path : String) :
    Prop where
  | unknownSubsystem {name : String} (hname : a.subsystem = some name)
      (h : Subsystem.ofName? name = none)
  | blocked {s : Subsystem} (hs : Selects a s) (h : Blocked l files a s)
  /-- There is no text in the output file that has a marker. -/
  | unmarked (h : ∀ existing, files.text? path = some existing → marker ∉ Text.lines existing)

variable {l : Image.Libraries} {files : Files} {a : Arguments} {s : Subsystem} {path : String}

/-!
# Runs
-/

theorem subsystems_eq_ok_iff {all : List Subsystem} : subsystems a = .ok all ↔
    (a.subsystem = none ∧ all = Subsystem.patched) ∨
      ∃ name s, a.subsystem = some name ∧ Subsystem.ofName? name = some s ∧ all = [s] := by
  unfold subsystems
  cases a.subsystem with
  | none => simp [eq_comm]
  | some name => cases hs : Subsystem.ofName? name <;> simp [hs, eq_comm]

theorem mem_subsystems {all : List Subsystem} (h : subsystems a = .ok all) :
    s ∈ all ↔ Selects a s := by
  unfold Selects
  rcases subsystems_eq_ok_iff.mp h with ⟨hname, rfl⟩ | ⟨name, t, hname, ht, rfl⟩
  · rw [hname]
  · rw [hname, List.mem_singleton]
    simp [ht, eq_comm]

theorem replacement_eq_ok_iff {lines : List String} {r : Option (String × String)} :
    replacement files (some path) lines = .ok r ↔ ∃ existing text,
      files.text? path = some existing ∧ splice existing lines = .ok text ∧
        r = some (path, text) := by
  unfold replacement Files.text?
  dsimp only
  cases hread : files.read path with
  | error fault => simp [Except.map, Except.toOption]
  | ok content =>
      cases htext : String.fromUTF8? content with
      | none => simp [Except.map, Except.toOption, htext]
      | some existing =>
          cases hsplice : splice existing lines with
          | error fault => simp [Except.map, Except.toOption, htext, hsplice]
          | ok text => simp [Except.map, Except.toOption, htext, hsplice, eq_comm]

/-- A run succeeds if it knows and can write its subsystems, and can replace the generated part
of the output file by all of them. -/
theorem run_eq_ok_iff (houtput : a.output = some path) {r : Option (String × String)} :
    (run l files a).result = .ok r ↔ ∃ all parts existing text, subsystems a = .ok all ∧
      List.Forall₂ (Renders l files a) all parts ∧ files.text? path = some existing ∧
        splice existing (headerLines ++ parts.flatten) = .ok text ∧ r = some (path, text) := by
  unfold run
  cases hall : subsystems a with
  | error failure => simp
  | ok all =>
      dsimp only
      cases hadded : addAll l files a all with
      | error failed =>
          constructor
          · intro h
            cases h
          · intro h
            rcases h with ⟨all', parts, existing, text, heq, hparts, _⟩
            cases heq
            rcases exists_addAll_iff.mpr ⟨parts, hparts, rfl⟩ with ⟨q, hq, _⟩
            cases hadded.symm.trans hq
      | ok q =>
          rcases exists_addAll_iff.mp ⟨q, hadded, rfl⟩ with ⟨parts, hparts, hwriter⟩
          dsimp only
          rw [houtput, hwriter, replacement_eq_ok_iff]
          constructor
          · intro h
            rcases h with ⟨existing, text, hresult⟩
            exact ⟨all, parts, existing, text, rfl, hparts, hresult⟩
          · intro h
            rcases h with ⟨all', parts', existing, text, heq, hparts', hresult⟩
            cases heq
            rcases exists_addAll_iff.mpr ⟨parts', hparts', rfl⟩ with ⟨q', hq', hwriter'⟩
            cases hadded.symm.trans hq'
            have hflatten : parts.flatten = parts'.flatten := by
              simpa using hwriter.symm.trans hwriter'
            rw [hflatten]
            exact ⟨existing, text, hresult⟩

theorem not_obstacle_of_ok (houtput : a.output = some path) {r : Option (String × String)}
    (h : (run l files a).result = .ok r) : ¬ Obstacle l files a path := by
  rcases (run_eq_ok_iff houtput).mp h with
    ⟨all, parts, existing, text, hall, hparts, hexisting, hsplice, _⟩
  intro hobstacle
  cases hobstacle with
  | unknownSubsystem hname hunknown =>
      rcases subsystems_eq_ok_iff.mp hall with ⟨hnone, _⟩ | ⟨_, _, hsome, hs, _⟩
      · cases hname.symm.trans hnone
      · cases hname.symm.trans hsome
        cases hunknown.symm.trans hs
  | blocked hs hblocked =>
      rcases Outcome.exists_of_mem hparts.flip ((mem_subsystems hall).mpr hs) with
        ⟨lines, _, hrenders⟩
      exact not_blocked_of_renders hrenders hblocked
  | unmarked hunmarked =>
      exact hunmarked existing hexisting (exists_splice_iff.mp ⟨text, hsplice⟩)

theorem exists_subsystems (h : ¬ Obstacle l files a path) : ∃ all, subsystems a = .ok all := by
  cases hname : a.subsystem with
  | none => exact ⟨_, subsystems_eq_ok_iff.mpr (.inl ⟨hname, rfl⟩)⟩
  | some name =>
      cases hs : Subsystem.ofName? name with
      | none => exact absurd (.unknownSubsystem hname hs) h
      | some s => exact ⟨_, subsystems_eq_ok_iff.mpr (.inr ⟨name, s, hname, hs, rfl⟩)⟩

/-- A run with an output file ends with an error and leaves all files as they were, if anything
stands in its way. Otherwise it writes only this file, and puts there in place of the generated
part the header and all of its subsystems, each as it would be written alone. -/
theorem run_replaces_output (l : Image.Libraries) (files : Files) (a : Arguments) {path : String}
    (houtput : a.output = some path) :
    (Obstacle l files a path → ∃ failure, (run l files a).result = .error failure ∧
      files.after (run l files a) = files) ∧
    (¬ Obstacle l files a path → ∃ all parts existing text, subsystems a = .ok all ∧
      List.Forall₂ (Renders l files a) all parts ∧ files.text? path = some existing ∧
        splice existing (headerLines ++ parts.flatten) = .ok text ∧
          (run l files a).result = .ok (some (path, text)) ∧
            files.after (run l files a) = files.write path text.toUTF8) := by
  constructor
  · intro hobstacle
    cases hresult : (run l files a).result with
    | ok r => exact absurd hobstacle (not_obstacle_of_ok houtput hresult)
    | error failure =>
        refine ⟨failure, rfl, ?_⟩
        unfold Files.after
        rw [hresult]
  · intro h
    rcases exists_subsystems h with ⟨all, hall⟩
    have hrenders : ∀ s ∈ all, ∃ lines, Renders l files a s lines := by
      intro s hs
      apply exists_renders_of_not_blocked
      intro hblocked
      exact h (.blocked ((mem_subsystems hall).mp hs) hblocked)
    rcases Outcome.exists_forall₂_iff.mpr hrenders with ⟨parts, hparts⟩
    have hmarked : ∃ existing, files.text? path = some existing ∧
        marker ∈ Text.lines existing := by
      by_contra hunmarked
      exact h (.unmarked fun existing hexisting hmarker =>
        hunmarked ⟨existing, hexisting, hmarker⟩)
    rcases hmarked with ⟨existing, hexisting, hmarker⟩
    rcases (@exists_splice_iff existing (headerLines ++ parts.flatten)).mpr hmarker with
      ⟨text, hsplice⟩
    have hresult : (run l files a).result = .ok (some (path, text)) :=
      (run_eq_ok_iff houtput).mpr
        ⟨all, parts, existing, text, hall, hparts, hexisting, hsplice, rfl⟩
    refine ⟨all, parts, existing, text, hall, hparts, hexisting, hsplice, hresult, ?_⟩
    unfold Files.after
    rw [hresult]

/-!
# A tree of modules
-/

def systemPath : Bitness → String
  | .x86 => "DLLs/Crysis_6156/Bin32/CrySystem.dll"
  | .x64 => "DLLs/Crysis_6156/Bin64/CrySystem.dll"

def systemCode : Bitness → List UInt8
  | .x86 => savingWarningCode.bytes
  | .x64 => warningCode.bytes

def systemModule (b : Bitness) : ByteArray :=
  Image.moduleFile b (systemCode b) (List.replicate (0x200 - (systemCode b).length) 0) (some 6156)

/-- Nothing but both modules of `CrySystem` in one build, and an output file. -/
def systemFiles : Files where
  read path :=
    if path = systemPath .x86 then
      .ok (systemModule .x86)
    else if path = systemPath .x64 then
      .ok (systemModule .x64)
    else if path = "MemoryPatch.cpp" then
      .ok (ended includingLines).toUTF8
    else
      .error .notFound

def systemArguments : Arguments :=
  ⟨"DLLs", .quick, some "MemoryPatch.cpp", some "CrySystem", false, false⟩

theorem load_systemFiles (b : Bitness) :
    load libraries systemFiles "DLLs" ⟨.system, 6156, b⟩ =
      Variant.decode .generalPurpose ⟨.system, 6156, b⟩
        (Image.moduleSection b (systemCode b)) := by
  have hpath : modulePath? "DLLs" ⟨.system, 6156, b⟩ = some (systemPath b) := by
    cases b <;> rfl
  have hread : systemFiles.read (systemPath b) = .ok (systemModule b) := by
    cases b <;> simp [systemFiles, systemPath]
  have hinspect : Image.inspect libraries.reader (systemModule b) =
      .ok ⟨b, some 6156, Image.moduleSection b (systemCode b)⟩ := by
    apply Image.inspect_moduleFile
    rw [List.length_replicate]
    cases b <;> rfl
  have hidentity : Image.checkIdentity ⟨.system, 6156, b⟩
      ⟨b, some 6156, Image.moduleSection b (systemCode b)⟩ = .ok () :=
    Image.checkIdentity_eq_ok.mpr ⟨rfl, 6156, rfl, rfl⟩
  unfold load
  rw [hpath]
  dsimp only
  rw [hread]
  dsimp only
  rw [Image.load_eq_of_inspect hinspect, hidentity]
  rfl

theorem exists_renders_systemFiles :
    ∃ lines, Renders libraries systemFiles systemArguments .system lines := by
  have hcount : (generate (fun b => Variant.decode .generalPurpose ⟨.system, 6156, b⟩
      (Image.moduleSection b (systemCode b))) .system [.x86, .x64]).result.map List.length =
        .ok 1 := by
    decide +kernel
  rcases Outcome.map_eq_ok.mp hcount with ⟨patches, hpatches, _⟩
  rcases Generation.run_eq_ok.mp hpatches with ⟨vs, hsmooth, hfinish⟩
  have hids : variants systemArguments.selection .system =
      [Bitness.x86, .x64].map fun b => ⟨.system, 6156, b⟩ := rfl
  have hloaded : Loaded libraries systemFiles systemArguments .system vs := by
    unfold Loaded
    rw [hids, List.forall₂_map_left_iff]
    exact hsmooth.loaded.imp fun b v hdecode => (load_systemFiles b).trans hdecode
  apply exists_renders_of_generate
  exact Generation.run_eq_ok.mpr ⟨vs, ⟨hloaded, hsmooth.taken⟩, hfinish⟩

theorem text?_systemFiles : systemFiles.text? "MemoryPatch.cpp" = some (ended includingLines) := by
  apply Files.text?_of_read
  simp [systemFiles, systemPath]

theorem subsystems_systemArguments : subsystems systemArguments = .ok [.system] := by
  have hname : Subsystem.ofName? "CrySystem" = some .system := by
    decide +kernel
  exact subsystems_eq_ok_iff.mpr (.inr ⟨_, _, rfl, hname, rfl⟩)

theorem marker_mem_includingLines : marker ∈ Text.lines (ended includingLines) := by
  have hlines : Text.lines (ended includingLines) = includingLines :=
    lines_ended (by
      simp only [includingLines, List.forall_mem_cons, unbroken_separator]
      decide +kernel)
  rw [hlines]
  simp [includingLines]

theorem not_obstacle_systemFiles :
    ¬ Obstacle libraries systemFiles systemArguments "MemoryPatch.cpp" := by
  rcases exists_renders_systemFiles with ⟨lines, hlines⟩
  rcases (@exists_splice_iff _ (headerLines ++ [lines].flatten)).mpr marker_mem_includingLines with
    ⟨text, hsplice⟩
  have hresult : (run libraries systemFiles systemArguments).result =
      .ok (some ("MemoryPatch.cpp", text)) :=
    (run_eq_ok_iff rfl).mpr ⟨_, [lines], _, text, subsystems_systemArguments, .cons hlines .nil,
      text?_systemFiles, hsplice, rfl⟩
  exact not_obstacle_of_ok rfl hresult

/-- With all subsystems, the first module that is missing ends the run. -/
theorem run_replaces_output_system :
    systemArguments.output = some "MemoryPatch.cpp" ∧
      (∃ lines text, Renders libraries systemFiles systemArguments .system lines ∧
        splice (ended includingLines) (headerLines ++ lines) = .ok text ∧
          systemFiles.after (run libraries systemFiles systemArguments) =
            systemFiles.write "MemoryPatch.cpp" text.toUTF8) ∧
        systemFiles.after
          (run libraries systemFiles { systemArguments with subsystem := none }) =
            systemFiles := by
  have hmissing : systemFiles.module? "DLLs" ⟨.action, 6156, .x86⟩ = none := by
    have hpath : modulePath? "DLLs" ⟨.action, 6156, .x86⟩ =
        some "DLLs/Crysis_6156/Bin32/CryAction.dll" := rfl
    unfold Files.module?
    rw [hpath]
    simp [systemFiles, systemPath, Except.toOption]
  refine ⟨rfl, ?_, ?_⟩
  · rcases (run_replaces_output libraries systemFiles systemArguments rfl).2
      not_obstacle_systemFiles with
      ⟨all, parts, existing, text, hall, hparts, hexisting, hsplice, _, hafter⟩
    cases text?_systemFiles.symm.trans hexisting
    cases hall.symm.trans subsystems_systemArguments
    rcases List.forall₂_cons_left_iff.mp hparts with ⟨lines, rest, hlines, hrest, rfl⟩
    cases hrest
    rw [List.flatten_singleton] at hsplice
    exact ⟨lines, text, hlines, hsplice, hafter⟩
  · have hid : (⟨.action, 6156, .x86⟩ : VariantId) ∈ variants .quick .action := by decide
    have hobstacle : Obstacle libraries systemFiles
        { systemArguments with subsystem := none } "MemoryPatch.cpp" :=
      .blocked (show Subsystem.action ∈ Subsystem.patched by decide)
        (.unloadable hid (.missing hmissing))
    rcases (run_replaces_output libraries systemFiles
      { systemArguments with subsystem := none } rfl).1 hobstacle with ⟨_, _, hafter⟩
    exact hafter

end Command
end JumpHooks
