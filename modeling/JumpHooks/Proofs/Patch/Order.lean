import JumpHooks.Proofs.Patch.Finish
import JumpHooks.Proofs.Patch.FirstFailure
import Mathlib.Data.List.Perm.Basic

/-!
# Order

The variants of a generation can be loaded in any order. Which variants are taken in does not
depend on it, and what is recorded depends on it only in the order of the targets. Neither the
size of a hook nor the statements of a build nor the builds that share a branch change with
that.
-/

namespace JumpHooks

theorem Signature.TakesAll.perm {g : Signature} {subsystem : Subsystem} {vs vs' : List Variant}
    (h : g.TakesAll subsystem vs) (hperm : vs.Perm vs') : g.TakesAll subsystem vs' := by
  rw [takesAll_iff] at h ⊢
  refine ⟨(hperm.map Variant.id).nodup h.1, ?_⟩
  intro v hv
  exact h.2 v (hperm.mem_iff.mpr hv)

namespace HookStub

theorem forTargets_perm {signature : String} {b : Bitness} {targets targets' : List Match}
    (hperm : targets.Perm targets') {s : HookStub} (h : forTargets signature b targets = .ok s) :
    forTargets signature b targets' = .ok s := by
  unfold forTargets at h ⊢
  rcases Outcome.bind_eq_ok.mp h with ⟨size, hsize, hassemble⟩
  apply Outcome.bind_eq_ok.mpr
  refine ⟨size, ?_, hassemble⟩
  simp only [HookSize.stubSize_eq_ok, hperm.mem_iff] at hsize ⊢
  exact hsize

end HookStub

theorem BuildCases.branches_congr {x y : BuildCases} (h : x.cases = y.cases) :
    x.branches = y.branches := by
  unfold branches
  rw [h]

namespace Draft

/-!
# Drafts
-/

/-- The drafts have the same targets in some order, and the same statements for every build. -/
structure Reordered (d d' : Draft) : Prop where
  subsystem : d'.subsystem = d.subsystem
  signature : d'.signature = d.signature
  targets : d.targets.Perm d'.targets
  statements : ∀ b n statements, (d.withFills.cases b).statements? n = some statements ↔
    (d'.withFills.cases b).statements? n = some statements

variable {d d' : Draft} {vs vs' : List Variant}

theorem Records.reordered (h : d.Records vs) (h' : d'.Records vs') (hperm : vs.Perm vs')
    (hsubsystem : d'.subsystem = d.subsystem) (hsignature : d'.signature = d.signature) :
    d.Reordered d' := by
  refine ⟨hsubsystem, hsignature, ?_, ?_⟩
  · rw [h.targets, h'.targets, hsignature]
    exact hperm.filterMap _
  · intro b n statements
    have hstatement : d'.statement? = d.statement? := by
      funext v
      unfold statement?
      rw [hsubsystem, hsignature]
    rw [h.statements?_withFills, h'.statements?_withFills, hstatement]
    simp only [hperm.mem_iff]

theorem Reordered.hooks (h : d.Reordered d') {hooks : List HookStub}
    (hhooks : d.hooks = .ok hooks) : d'.hooks = .ok hooks := by
  unfold Draft.hooks at hhooks ⊢
  rw [← h.targets.isEmpty_eq, h.signature]
  split
  · rename_i hempty
    rw [if_pos hempty] at hhooks
    exact hhooks
  · rename_i hempty
    rw [if_neg hempty, Outcome.mapM_eq_ok] at hhooks
    rw [Outcome.mapM_eq_ok]
    apply hhooks.imp
    intro b s hs
    exact HookStub.forTargets_perm h.targets hs

theorem Reordered.cases (h : d.Reordered d') (b : Bitness) :
    (d.withFills.cases b).cases = (d'.withFills.cases b).cases :=
  BuildCases.cases_eq_of_statements? (h.statements b)

theorem Reordered.withPlaceholders (h : d.Reordered d') {x : BuildCases}
    (hx : Draft.withPlaceholders d.withFills.x86 = .ok x) :
    ∃ x', Draft.withPlaceholders d'.withFills.x86 = .ok x' ∧ x.cases = x'.cases := by
  have hsize : d.withFills.x86.size = d'.withFills.x86.size := congrArg List.length (h.cases .x86)
  have hstatements : d.withFills.x86.statements? = d'.withFills.x86.statements? := by
    funext n
    unfold BuildCases.statements?
    exact congrArg (Case.lookup n) (h.cases .x86)
  have hexists := exists_withPlaceholders_iff.mp ⟨x, hx⟩
  rw [hsize, hstatements, ← exists_withPlaceholders_iff] at hexists
  rcases hexists with ⟨x', hx'⟩
  refine ⟨x', hx', ?_⟩
  apply BuildCases.cases_eq_of_statements?
  intro n statements
  rw [statements?_withPlaceholders hx, statements?_withPlaceholders hx', hsize, hstatements]

theorem Reordered.finish (h : d.Reordered d') {p : Patch} (hfinish : d.finish = .ok p) :
    d'.finish = .ok { p with targets := d'.targets } := by
  rcases finish_ok hfinish with ⟨hooks, x, hhooks, hx, hp⟩
  rcases h.withPlaceholders hx with ⟨x', hx', hcases⟩
  have hx64 : d.withFills.x64.branches = d'.withFills.x64.branches :=
    BuildCases.branches_congr (h.cases .x64)
  unfold Draft.finish
  apply Outcome.bind_eq_ok.mpr
  refine ⟨hooks, h.hooks hhooks, ?_⟩
  apply Outcome.bind_eq_ok.mpr
  refine ⟨x', hx', ?_⟩
  rw [hp, hx64, BuildCases.branches_congr hcases, h.subsystem, h.signature]
  rfl

/-- The patch is the same in any order, but for the order of its targets. -/
theorem finish_after_perm {subsystem : Subsystem} {g : Signature}
    (htakes : g.TakesAll subsystem vs) (hperm : vs.Perm vs') {p : Patch}
    (hfinish : ((new subsystem g).after vs).finish = .ok p) :
    ∃ p', ((new subsystem g).after vs').finish = .ok p' ∧
      p' = { p with targets := p'.targets } ∧ p.targets.Perm p'.targets := by
  have hrecords := records_of_takesAll htakes
  have hrecords' := records_of_takesAll (htakes.perm hperm)
  have hreordered : ((new subsystem g).after vs).Reordered ((new subsystem g).after vs') := by
    apply hrecords.reordered hrecords' hperm
    · rw [subsystem_new_after, subsystem_new_after]
    · rw [signature_new_after, signature_new_after]
  refine ⟨_, hreordered.finish hfinish, rfl, ?_⟩
  rw [targets_finish hfinish]
  exact hreordered.targets

end Draft

namespace Generation

/-!
# Generations
-/

variable {κ : Type} {load : κ → Except Error Variant} {subsystem : Subsystem}
  {signatures : List Signature} {keys keys' : List κ} {vs : List Variant}

theorem Smooth.perm (h : Smooth load subsystem signatures keys vs) (hperm : keys.Perm keys') :
    ∃ vs', vs.Perm vs' ∧ Smooth load subsystem signatures keys' vs' := by
  rcases List.perm_comp_forall₂ hperm.symm h.loaded with ⟨vs', hloaded, hvs⟩
  exact ⟨vs', hvs.symm, hloaded, fun g hg => (h.taken g hg).perm hvs.symm⟩

/-- A generation that succeeds does so in any order, with the same patches but for the order of
the targets. -/
theorem run_perm {patches : List Patch}
    (h : (run load (.withSignatures subsystem signatures) keys).result = .ok patches)
    (hperm : keys.Perm keys') :
    ∃ patches', (run load (.withSignatures subsystem signatures) keys').result = .ok patches' ∧
      List.Forall₂ (fun p p' => p' = { p with targets := p'.targets } ∧ p.targets.Perm p'.targets)
        patches patches' := by
  rcases run_eq_ok.mp h with ⟨vs, hsmooth, hfinish⟩
  rcases hsmooth.perm hperm with ⟨vs', hvs, hsmooth'⟩
  have hboth := (List.forall₂_and_left _ _).mpr ⟨hsmooth.taken, hfinish⟩
  have hpatches := hboth.imp fun g p hp => Draft.finish_after_perm hp.1 hvs hp.2
  rcases Outcome.forall₂_comp.mp hpatches with ⟨patches', hfinish', hsame⟩
  exact ⟨patches', run_eq_ok.mpr ⟨vs', hsmooth', hfinish'⟩, hsame.flip⟩

end Generation

/-- The order in which variants are loaded decides the order of the targets, and nothing else. -/
theorem generate_perm {κ : Type} (load : κ → Except Error Variant) (subsystem : Subsystem)
    {keys keys' : List κ} (hperm : keys.Perm keys') :
    ((∃ patches, (generate load subsystem keys).result = .ok patches) ↔
      ∃ patches, (generate load subsystem keys').result = .ok patches) ∧
    ∀ patches patches', (generate load subsystem keys).result = .ok patches →
      (generate load subsystem keys').result = .ok patches' →
        List.Forall₂
          (fun p p' => p' = { p with targets := p'.targets } ∧ p.targets.Perm p'.targets)
            patches patches' ∧
        ∃ vs vs', List.Forall₂ (fun k v => load k = .ok v) keys vs ∧
          List.Forall₂ (fun k v => load k = .ok v) keys' vs' ∧ vs.Perm vs' ∧
          List.Forall₂ (fun g p => List.Forall₂
            (fun v t => ∃ s, g.find v = .ok s ∧ t = Match.ofSubroutine g.name v s)
              (vs.filter fun v => (g.exemption v.id).isNone) p.targets)
            (Signature.inSubsystem subsystem) patches ∧
          List.Forall₂ (fun g p => List.Forall₂
            (fun v t => ∃ s, g.find v = .ok s ∧ t = Match.ofSubroutine g.name v s)
              (vs'.filter fun v => (g.exemption v.id).isNone) p.targets)
            (Signature.inSubsystem subsystem) patches' := by
  constructor
  · constructor
    · intro h
      rcases h with ⟨patches, h⟩
      rcases Generation.run_perm h hperm with ⟨patches', h', _⟩
      exact ⟨patches', h'⟩
    · intro h
      rcases h with ⟨patches', h'⟩
      rcases Generation.run_perm h' hperm.symm with ⟨patches, h, _⟩
      exact ⟨patches, h⟩
  · intro patches patches' h h'
    rcases Generation.run_perm h hperm with ⟨others, hothers, hsame⟩
    cases Except.ok.inj (h'.symm.trans hothers)
    rcases Generation.run_eq_ok.mp h with ⟨vs, hsmooth, _⟩
    rcases hsmooth.perm hperm with ⟨vs', hvs, hsmooth'⟩
    exact ⟨hsame, vs, vs', hsmooth.loaded, hsmooth'.loaded, hvs,
      Generation.targets_run h hsmooth.loaded,
      Generation.targets_run h' hsmooth'.loaded⟩

theorem generate_perm_two_builds :
    ∃ patches patches', (generate warningBuild .system [6156, 5767]).result = .ok patches ∧
      (generate warningBuild .system [5767, 6156]).result = .ok patches' ∧
        (patches'.flatMap Patch.targets).map (fun t => t.variant.build) = [5767, 6156] ∧
          List.Forall₂
            (fun p p' => p' = { p with targets := p'.targets } ∧ p.targets.Perm p'.targets)
              patches patches' := by
  rcases generate_perm warningBuild .system (List.Perm.swap 5767 6156 []) with ⟨hok, hsame⟩
  have hbuilds : ((generate warningBuild .system [5767, 6156]).result.map fun patches =>
      (patches.flatMap Patch.targets).map fun t => t.variant.build) = .ok [5767, 6156] := by
    decide +kernel
  cases h' : (generate warningBuild .system [5767, 6156]).result with
  | error e =>
      rw [h'] at hbuilds
      cases hbuilds
  | ok patches' =>
      rw [h'] at hbuilds
      rcases hok.mpr ⟨patches', h'⟩ with ⟨patches, h⟩
      exact ⟨patches, patches', h, rfl, Except.ok.inj hbuilds, (hsame patches patches' h h').1⟩

end JumpHooks
