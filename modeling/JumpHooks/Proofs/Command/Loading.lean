import JumpHooks.Command.Run
import JumpHooks.Proofs.Image.Load
import JumpHooks.Proofs.Patch.FirstFailure

/-!
# The variants of a run

A run needs all variants that it selects. Each of them is the module at its place in the tree, or
there is a reason why it cannot be loaded, and no variant is selected twice.
-/

namespace JumpHooks
namespace Command

variable {l : Image.Libraries} {files : Files} {root : String} {selection : Selection}
  {subsystem : Subsystem} {id : VariantId} {v : Variant}

/-!
# Selected variants
-/

/-- All 32-bit builds come before the 64-bit ones. -/
theorem variants_eq (selection : Selection) (s : Subsystem) :
    variants selection s =
      (selection.builds .x86).map (fun build => ⟨s, build, .x86⟩) ++
        (selection.builds .x64).map fun build => ⟨s, build, .x64⟩ := by
  unfold variants
  rw [List.flatMap_cons, List.flatMap_singleton]

theorem mem_variants : id ∈ variants selection subsystem ↔
    id.subsystem = subsystem ∧ id.build ∈ selection.builds id.bitness := by
  rw [variants_eq]
  rcases id with ⟨s, build, b⟩
  cases b <;> simp [and_comm, eq_comm]

theorem build_lt_of_mem_builds {b : Bitness} {build : Nat} (h : build ∈ selection.builds b) :
    build < 2 ^ 32 := by
  have hall : ∀ build ∈ selection.builds b, build < 2 ^ 32 := by
    cases selection <;> cases b <;> decide
  exact hall build h

theorem nodup_builds (selection : Selection) (b : Bitness) : (selection.builds b).Nodup := by
  cases selection <;> cases b <;> decide

theorem nodup_variants (selection : Selection) (s : Subsystem) :
    (variants selection s).Nodup := by
  have hinjective : ∀ b, Function.Injective fun build => (⟨s, build, b⟩ : VariantId) :=
    fun b build other h => (VariantId.mk.inj h).2.1
  rw [variants_eq, List.nodup_append']
  refine ⟨(nodup_builds selection .x86).map (hinjective .x86),
    (nodup_builds selection .x64).map (hinjective .x64), ?_⟩
  intro id hnarrow hwide
  rcases List.mem_map.mp hnarrow with ⟨build, _, rfl⟩
  rcases List.mem_map.mp hwide with ⟨other, _, heq⟩
  cases heq

/-!
# Loading
-/

/-- The file at the place of a variant in the tree of modules. -/
def Files.module? (files : Files) (root : String) (id : VariantId) : Option ByteArray :=
  (modulePath? root id).bind fun path => (files.read path).toOption

/-- Why a variant cannot be loaded. -/
inductive Unloadable (l : Image.Libraries) (files : Files) (root : String) (id : VariantId) :
    Prop where
  | missing (h : files.module? root id = none)
  | unreadable {file : ByteArray} {e : Error} (h : files.module? root id = some file)
      (hinspect : Image.inspect l.reader file = .error e)
  | otherVariant {file : ByteArray} {info : Image.Info} (h : files.module? root id = some file)
      (hinspect : Image.inspect l.reader file = .ok info)
      (hother : ¬ (info.bitness = id.bitness ∧
        ∃ n, info.build = some n ∧ Image.realBuild id.subsystem n = id.build))
  | undecodable {file : ByteArray} {info : Image.Info} {e : Error}
      (h : files.module? root id = some file) (hinspect : Image.inspect l.reader file = .ok info)
      (hdecode : Variant.decode l.disassembler id info.code = .error e)

theorem load_eq_ok_iff : load l files root id = .ok v ↔
    ∃ file, files.module? root id = some file ∧ Image.load l file id = .ok v := by
  unfold load Files.module?
  cases modulePath? root id with
  | none => simp
  | some path =>
      cases hread : files.read path with
      | error fault => simp [hread, Except.toOption]
      | ok file => simp [hread, Except.toOption]

/-- A variant can be loaded exactly if there is no reason why not. -/
theorem exists_load_iff : (∃ v, load l files root id = .ok v) ↔ ¬ Unloadable l files root id := by
  simp only [load_eq_ok_iff, Image.load_eq_ok_iff]
  constructor
  · intro h hunloadable
    rcases h with ⟨v, file, hfile, info, hinspect, hidentity, hdecode⟩
    cases hunloadable with
    | missing hmissing => cases hfile.symm.trans hmissing
    | unreadable hother hfault =>
        cases hfile.symm.trans hother
        cases hinspect.symm.trans hfault
    | otherVariant hother hsame hdifferent =>
        cases hfile.symm.trans hother
        cases hinspect.symm.trans hsame
        exact hdifferent hidentity
    | undecodable hother hsame hfault =>
        cases hfile.symm.trans hother
        cases hinspect.symm.trans hsame
        cases hdecode.symm.trans hfault
  · intro h
    cases hfile : files.module? root id with
    | none => exact absurd (.missing hfile) h
    | some file =>
        cases hinspect : Image.inspect l.reader file with
        | error e => exact absurd (.unreadable hfile hinspect) h
        | ok info =>
            cases hdecode : Variant.decode l.disassembler id info.code with
            | error e => exact absurd (.undecodable hfile hinspect hdecode) h
            | ok v =>
                by_cases hidentity : info.bitness = id.bitness ∧
                    ∃ n, info.build = some n ∧ Image.realBuild id.subsystem n = id.build
                · exact ⟨v, file, rfl, info, hinspect, hidentity, hdecode⟩
                · exact absurd (.otherVariant hfile hinspect hidentity) h

theorem exists_decode_of_load (h : load l files root id = .ok v) :
    ∃ code, Variant.decode l.disassembler id code = .ok v := by
  rcases load_eq_ok_iff.mp h with ⟨file, _, hload⟩
  rcases Image.load_eq_ok_iff.mp hload with ⟨info, _, _, hdecode⟩
  exact ⟨info.code, hdecode⟩

theorem id_of_load (h : load l files root id = .ok v) : v.id = id := by
  rcases exists_decode_of_load h with ⟨code, hdecode⟩
  exact (Variant.decode_eq_ok hdecode).id

/-!
# Searching
-/

/-- A signature of the catalog is found if its pattern has exactly one match. -/
theorem exists_find_iff {g : Signature} (hg : g ∈ Signature.catalog)
    (h : load l files root id = .ok v) {p : Pattern} (hp : g.pattern id.bitness = .ok p) :
    (∃ s, g.find v = .ok s) ↔ ∃! s, p.Accepts v s := by
  rcases Signature.pattern_of_mem_catalog hg id.bitness with ⟨q, hq, hnames, _⟩
  cases hp.symm.trans hq
  rcases Pattern.candidates_isSearchResult hnames v with ⟨found, hfound, hresult⟩
  rw [Signature.find_of_mem_catalog hg, id_of_load h, hp]
  exact exists_congr (Pattern.findUnique_eq_ok_iff hfound hresult g.name)

/-- A signature goes along with a loaded variant if the variant is exempt, or its pattern has
exactly one match there. -/
theorem handles_iff {g : Signature} (hg : g ∈ Signature.catalog)
    (h : load l files root id = .ok v) {p : Pattern} (hp : g.pattern id.bitness = .ok p) :
    g.Handles v ↔ (g.exemption id = none → ∃! s, p.Accepts v s) := by
  rw [← exists_find_iff hg h hp]
  unfold Signature.Handles
  rw [id_of_load h]
  cases g.exemption id <;> simp

/-!
# Generating
-/

/-- All selected variants of a subsystem are loaded, in loading order. -/
def Loaded (l : Image.Libraries) (files : Files) (a : Arguments) (s : Subsystem)
    (vs : List Variant) : Prop :=
  List.Forall₂ (fun id v => load l files a.root id = .ok v) (variants a.selection s) vs

variable {a : Arguments} {vs : List Variant}

theorem Loaded.unique {ws : List Variant} (h : Loaded l files a subsystem vs)
    (hother : Loaded l files a subsystem ws) : vs = ws := by
  have hunique : Relator.RightUnique fun id v => load l files a.root id = .ok v :=
    fun id v w hv hw => Except.ok.inj (hv.symm.trans hw)
  exact hunique.forall₂ h hother

theorem exists_loaded_iff : (∃ vs, Loaded l files a subsystem vs) ↔
    ∀ id ∈ variants a.selection subsystem, ¬ Unloadable l files a.root id := by
  unfold Loaded
  simp only [Outcome.exists_forall₂_iff, exists_load_iff]

theorem Loaded.map_id (h : Loaded l files a subsystem vs) :
    vs.map Variant.id = variants a.selection subsystem := by
  have hids : List.Forall₂ Eq (variants a.selection subsystem) (vs.map Variant.id) :=
    List.forall₂_map_right_iff.mpr (h.imp fun id v hload => (id_of_load hload).symm)
  rw [List.forall₂_eq_eq_eq] at hids
  exact hids.symm

theorem Loaded.id_mem (h : Loaded l files a subsystem vs) (hv : v ∈ vs) :
    v.id ∈ variants a.selection subsystem := by
  rw [← h.map_id]
  exact List.mem_map_of_mem hv

/-- What is loaded for a subsystem are its variants, each of them once. -/
theorem Loaded.takesAll_iff (h : Loaded l files a subsystem vs) {g : Signature} :
    g.TakesAll subsystem vs ↔ ∀ v ∈ vs, g.Handles v := by
  have hsubsystem : ∀ v ∈ vs, v.id.subsystem = subsystem := by
    intro v hv
    exact (mem_variants.mp (h.id_mem hv)).1
  rw [Signature.takesAll_iff, h.map_id]
  constructor
  · intro htakes v hv
    exact (htakes.2 v hv).2
  · intro hhandles
    exact ⟨nodup_variants _ _, fun v hv => ⟨hsubsystem v hv, hhandles v hv⟩⟩

/-- Patches are generated if the variants are loaded, each signature has its match in all of
them, and its draft can be finished. -/
theorem generate_eq_ok_iff {patches : List Patch} :
    (generate (load l files a.root) subsystem (variants a.selection subsystem)).result =
        .ok patches ↔
      ∃ vs, Loaded l files a subsystem vs ∧
        (∀ g ∈ Signature.inSubsystem subsystem, ∀ v ∈ vs, g.Handles v) ∧
          List.Forall₂ (fun g p => ((Draft.new subsystem g).after vs).finish = .ok p)
            (Signature.inSubsystem subsystem) patches := by
  constructor
  · intro h
    rcases Generation.run_eq_ok.mp h with ⟨vs, hsmooth, hfinish⟩
    have hloaded : Loaded l files a subsystem vs := hsmooth.loaded
    exact ⟨vs, hloaded, fun g hg => hloaded.takesAll_iff.mp (hsmooth.taken g hg), hfinish⟩
  · intro h
    rcases h with ⟨vs, hloaded, hhandles, hfinish⟩
    have htakes : ∀ g ∈ Signature.inSubsystem subsystem, g.TakesAll subsystem vs :=
      fun g hg => hloaded.takesAll_iff.mpr (hhandles g hg)
    exact Generation.run_eq_ok.mpr ⟨vs, ⟨hloaded, htakes⟩, hfinish⟩

end Command
end JumpHooks
