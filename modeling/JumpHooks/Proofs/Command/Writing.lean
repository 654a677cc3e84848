import JumpHooks.Proofs.Command.Loading
import JumpHooks.Proofs.Patch.Printing
import JumpHooks.Proofs.Source.Balance
import JumpHooks.Proofs.Source.Regeneration

/-!
# What a run writes

A run goes through its subsystems with one writer. It reaches the end if each subsystem could be
written alone, and has then written all of them one behind the other.
-/

namespace JumpHooks
namespace Command

open Source

variable {l : Image.Libraries} {files : Files} {a : Arguments} {p : Progress} {w : Writer}
  {s : Subsystem}

/-- The header of a subsystem and behind it a function for each patch that is generated from the
variants, 32-bit builds first. Each function is what is written of its patch alone. -/
def Renders (l : Image.Libraries) (files : Files) (a : Arguments) (s : Subsystem)
    (lines : List String) : Prop :=
  ∃ patches functions,
    (generate (load l files a.root) s
      ((a.selection.builds .x86).map (fun build => ⟨s, build, .x86⟩) ++
        (a.selection.builds .x64).map fun build => ⟨s, build, .x64⟩)).result = .ok patches ∧
    List.Forall₂ (fun p function =>
      Writer.empty.write (patchItems p) = (⟨0, function.toArray⟩, none)) patches functions ∧
    lines = subsystemLines s ++ functions.flatten

/-!
# Parts of a run
-/

theorem Progress.write_eq_ok_iff {q : Progress} {items : List Item} :
    p.write items = .ok q ↔
      ∃ w, p.writer.write items = (w, none) ∧ q = { p with writer := w } := by
  unfold write
  cases p.writer.write items with
  | mk w fault => cases fault <;> simp [eq_comm]

/-- Balanced items are written at the margin if they can be laid out there. -/
theorem Progress.exists_write_iff (hlevel : p.writer.level = 0) {items : List Item}
    (hitems : Balanced items) : (∃ q, p.write items = .ok q ∧ q.writer = w) ↔
      ∃ lines, Lays 0 items lines 0 ∧ w = ⟨0, p.writer.lines ++ lines.toArray⟩ := by
  simp only [write_eq_ok_iff]
  constructor
  · intro h
    rcases h with ⟨q, ⟨w', hwrite, rfl⟩, rfl⟩
    rcases Writer.write_eq_none_iff.mp hwrite with ⟨lines, hlays, hlines⟩
    have hafter := hlays.after_eq.trans (hitems _)
    rw [hafter, hlevel] at hlays
    rw [hlevel] at hafter
    refine ⟨lines, hlays, ?_⟩
    rw [← hlines, ← hafter]
  · intro h
    rcases h with ⟨lines, hlays, rfl⟩
    exact ⟨_, ⟨_, hlays.write p.writer hlevel, rfl⟩, rfl⟩

theorem Progress.write_of_lays (hlevel : p.writer.level = 0) {items : List Item}
    {lines : List String} (h : Lays 0 items lines 0) :
    p.write items = .ok { p with writer := ⟨0, p.writer.lines ++ lines.toArray⟩ } :=
  write_eq_ok_iff.mpr ⟨_, h.write p.writer hlevel, rfl⟩

/-- A subsystem adds the lines that it would have alone. -/
theorem exists_addSubsystem_iff (hlevel : p.writer.level = 0) :
    (∃ q, addSubsystem l files a p s = .ok q ∧ q.writer = w) ↔
      ∃ lines, Renders l files a s lines ∧ w = ⟨0, p.writer.lines ++ lines.toArray⟩ := by
  unfold addSubsystem Renders
  rw [Progress.write_of_lays hlevel (lays_subsystemHeader s), ← variants_eq]
  dsimp only [bind, Except.bind]
  cases hresult : (generate (load l files a.root) s (variants a.selection s)).result with
  | error e => simp
  | ok patches =>
      dsimp only
      rw [Progress.exists_write_iff rfl (Balanced.flatMap balanced_patchItems patches)]
      simp only [lays_flatMap_iff balanced_patchItems, Writer.write_empty_iff, true_and]
      constructor
      · intro h
        rcases h with ⟨lines, ⟨functions, hfunctions, rfl⟩, rfl⟩
        refine ⟨_, ⟨patches, functions, rfl, hfunctions, rfl⟩, ?_⟩
        simp
      · intro h
        rcases h with ⟨lines, ⟨patches', functions, heq, hfunctions, rfl⟩, rfl⟩
        cases heq
        exact ⟨_, ⟨functions, hfunctions, rfl⟩, by simp⟩

/-- Subsystems add their lines one behind the other. -/
theorem exists_foldlM_iff (hlevel : p.writer.level = 0) {all : List Subsystem} :
    (∃ q, all.foldlM (addSubsystem l files a) p = .ok q ∧ q.writer = w) ↔
      ∃ parts, List.Forall₂ (Renders l files a) all parts ∧
        w = ⟨0, p.writer.lines ++ parts.flatten.toArray⟩ := by
  -- On the subsystems, for every progress at the margin.
  induction all generalizing p with
  | nil =>
      constructor
      · intro h
        rcases h with ⟨q, hq, rfl⟩
        cases hq
        exact ⟨[], .nil, by rw [← hlevel]; simp⟩
      · intro h
        rcases h with ⟨parts, hparts, rfl⟩
        cases hparts
        exact ⟨p, rfl, by rw [← hlevel]; simp⟩
  | cons s all ih =>
      simp only [List.foldlM_cons, Outcome.bind_eq_ok]
      constructor
      · intro h
        rcases h with ⟨q, ⟨middle, hmiddle, hq⟩, hw⟩
        rcases (exists_addSubsystem_iff hlevel).mp ⟨middle, hmiddle, rfl⟩ with
          ⟨lines, hlines, hwriter⟩
        have hmargin : middle.writer.level = 0 := by rw [hwriter]
        rcases (ih hmargin).mp ⟨q, hq, hw⟩ with ⟨parts, hparts, rfl⟩
        refine ⟨lines :: parts, .cons hlines hparts, ?_⟩
        rw [hwriter]
        simp
      · intro h
        rcases h with ⟨parts, hparts, rfl⟩
        rcases List.forall₂_cons_left_iff.mp hparts with ⟨lines, rest, hlines, hrest, rfl⟩
        rcases (exists_addSubsystem_iff hlevel).mpr ⟨lines, hlines, rfl⟩ with
          ⟨middle, hmiddle, hwriter⟩
        have hmargin : middle.writer.level = 0 := by rw [hwriter]
        rcases (ih hmargin).mpr ⟨rest, hrest, by rw [hwriter]; simp⟩ with ⟨q, hq, hw⟩
        exact ⟨q, ⟨middle, hmiddle, hq⟩, hw⟩

/-- All subsystems are written behind the header of the file. -/
theorem exists_addAll_iff {all : List Subsystem} :
    (∃ q, addAll l files a all = .ok q ∧ q.writer = w) ↔
      ∃ parts, List.Forall₂ (Renders l files a) all parts ∧
        w = ⟨0, (headerLines ++ parts.flatten).toArray⟩ := by
  unfold addAll
  rw [Progress.write_of_lays rfl lays_fileHeader]
  dsimp only [bind, Except.bind]
  rw [exists_foldlM_iff rfl]
  simp [Progress.empty, Writer.empty]

/-!
# Subsystems that cannot be written
-/

/-- Why nothing can be written for a subsystem. -/
inductive Blocked (l : Image.Libraries) (files : Files) (a : Arguments) (s : Subsystem) :
    Prop where
  | unloadable {id : VariantId} (hid : id ∈ variants a.selection s)
      (h : Unloadable l files a.root id)
  /-- In a variant that is not exempt, a signature has no match or several. -/
  | unmatched {id : VariantId} {v : Variant} {g : Signature} {p : Pattern}
      (hid : id ∈ variants a.selection s) (hload : load l files a.root id = .ok v)
      (hg : g ∈ Signature.inSubsystem s) (hexempt : g.exemption id = none)
      (hp : g.pattern id.bitness = .ok p) (h : ¬ ∃! t, p.Accepts v t)
  | unfinished {vs : List Variant} {g : Signature} {e : Error} (hloaded : Loaded l files a s vs)
      (hg : g ∈ Signature.inSubsystem s)
      (h : ((Draft.new s g).after vs).finish = .error e)
  | unwritable {vs : List Variant} {g : Signature} {p : Patch} {w : Writer} {fault : Fault}
      (hloaded : Loaded l files a s vs) (hg : g ∈ Signature.inSubsystem s)
      (hfinish : ((Draft.new s g).after vs).finish = .ok p)
      (h : Writer.empty.write (patchItems p) = (w, some fault))

theorem not_blocked_of_renders {lines : List String} (h : Renders l files a s lines) :
    ¬ Blocked l files a s := by
  rcases h with ⟨patches, functions, hpatches, hfunctions, _⟩
  rw [← variants_eq] at hpatches
  rcases generate_eq_ok_iff.mp hpatches with ⟨vs, hloaded, hhandles, hfinish⟩
  have hwritten := Outcome.forall₂_comp.mpr ⟨patches, hfinish, hfunctions⟩
  intro hblocked
  cases hblocked with
  | unloadable hid hunloadable => exact exists_loaded_iff.mp ⟨vs, hloaded⟩ _ hid hunloadable
  | unmatched hid hload hg hexempt hp hmatches =>
      rcases Outcome.exists_of_mem hloaded.flip hid with ⟨v, hv, hsame⟩
      cases hload.symm.trans hsame
      have hcatalog := List.mem_of_mem_filter hg
      exact hmatches ((handles_iff hcatalog hload hp).mp (hhandles _ hg _ hv) hexempt)
  | unfinished hother hg hfault =>
      cases hloaded.unique hother
      rcases Outcome.exists_of_mem hfinish.flip hg with ⟨p, _, hp⟩
      cases hfault.symm.trans hp
  | unwritable hother hg hp hfault =>
      cases hloaded.unique hother
      rcases Outcome.exists_of_mem hwritten.flip hg with ⟨function, _, q, hq, hfunction⟩
      cases hp.symm.trans hq
      cases hfault.symm.trans hfunction

theorem exists_renders_of_written {patches : List Patch}
    (h : (generate (load l files a.root) s (variants a.selection s)).result = .ok patches)
    (hwritten : ∀ p ∈ patches, ∃ function,
      Writer.empty.write (patchItems p) = (⟨0, List.toArray function⟩, none)) :
    ∃ lines, Renders l files a s lines := by
  rcases Outcome.exists_forall₂_iff.mpr hwritten with ⟨functions, hfunctions⟩
  rw [variants_eq] at h
  exact ⟨_, patches, functions, h, hfunctions, rfl⟩

theorem exists_renders_of_not_blocked (h : ¬ Blocked l files a s) :
    ∃ lines, Renders l files a s lines := by
  rcases exists_loaded_iff.mpr fun id hid hunloadable => h (.unloadable hid hunloadable) with
    ⟨vs, hloaded⟩
  have hhandles : ∀ g ∈ Signature.inSubsystem s, ∀ v ∈ vs, g.Handles v := by
    intro g hg v hv
    have hcatalog := List.mem_of_mem_filter hg
    rcases Outcome.exists_of_mem hloaded hv with ⟨id, hid, hload⟩
    rcases Signature.pattern_of_mem_catalog hcatalog id.bitness with ⟨p, hp, _⟩
    rw [handles_iff hcatalog hload hp]
    intro hexempt
    by_contra hmatches
    exact h (.unmatched hid hload hg hexempt hp hmatches)
  have hfinished : ∀ g ∈ Signature.inSubsystem s,
      ∃ p, ((Draft.new s g).after vs).finish = .ok p := by
    intro g hg
    cases hp : ((Draft.new s g).after vs).finish with
    | error e => exact absurd (.unfinished hloaded hg hp) h
    | ok p => exact ⟨p, rfl⟩
  rcases Outcome.exists_forall₂_iff.mpr hfinished with ⟨patches, hfinish⟩
  apply exists_renders_of_written (generate_eq_ok_iff.mpr ⟨vs, hloaded, hhandles, hfinish⟩)
  intro p hp
  rcases Outcome.exists_of_mem hfinish hp with ⟨g, hg, hpatch⟩
  rcases (balanced_patchItems p).write_empty with hwritten | ⟨w, fault, hfault⟩
  · exact hwritten
  · exact absurd (.unwritable hloaded hg hpatch hfault) h

/-- What is generated can always be written. -/
theorem exists_renders_of_generate {patches : List Patch}
    (h : (generate (load l files a.root) s (variants a.selection s)).result = .ok patches) :
    ∃ lines, Renders l files a s lines := by
  rcases generate_eq_ok_iff.mp h with ⟨vs, hloaded, _, hfinish⟩
  have hbuilds : ∀ v ∈ vs, v.id.build < 2 ^ 32 := by
    intro v hv
    exact build_lt_of_mem_builds (mem_variants.mp (hloaded.id_mem hv)).2
  apply exists_renders_of_written h
  intro p hp
  rcases Outcome.exists_of_mem hfinish hp with ⟨g, hg, hpatch⟩
  have hprintable := Draft.finish_printable (List.mem_of_mem_filter hg) hbuilds hpatch
  rcases write_patchItems hprintable with ⟨lines, hwrite, _⟩
  exact ⟨lines.toList, hwrite⟩

end Command
end JumpHooks
