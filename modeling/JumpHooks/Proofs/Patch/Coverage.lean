import JumpHooks.Proofs.Patch.Finish
import JumpHooks.Proofs.Patch.FirstFailure

/-!
# Coverage

A generator that is driven call by call can be finished after a call that failed. Its patches
then cover the variants that one of the calls took in, and no other variant that was offered:
a failed call leaves the mark that the variant was offered, and so no later call makes up for
it.
-/

namespace JumpHooks

/-- The patch has a target or the case of an exemption for the build and the instruction set. -/
def Patch.Covers (p : Patch) (g : Signature) (id : VariantId) : Prop :=
  (∃ t ∈ p.targets, t.variant.build = id.build ∧ t.variant.bitness = id.bitness) ∨
    ∃ own, g.exemption id = some own ∧ ∃ branch ∈ p.branches id.bitness,
      id.build ∈ branch.builds ∧ ∃ statement,
        branch.statements = [statement] ∧ Text.words statement = Text.words own

namespace Draft

variable {subsystem : Subsystem} {g : Signature} {p : Patch} {v : Variant}

/-!
# Drafts
-/

theorem not_processed_of_mem_accepted {d : Draft} {offered : List Variant}
    (h : v ∈ d.accepted offered) : v.key ∉ d.processed := by
  induction offered generalizing d with
  | nil => exact absurd h List.not_mem_nil
  | cons u offered ih =>
      have hlater : v ∈ (d.process u).state.accepted offered → v.key ∉ d.processed := by
        intro hmem hprocessed
        exact ih hmem (mem_processed_process.mpr (.inl hprocessed))
      cases hresult : (d.process u).result with
      | error e =>
          rw [accepted_cons_of_error hresult] at h
          exact hlater h
      | ok o =>
          rw [accepted_cons_of_ok hresult] at h
          rcases List.mem_cons.mp h with heq | hmem
          · rw [heq]
            exact (process_ok hresult).2.1
          · exact hlater hmem

theorem covers_of_mem_accepted {offered : List Variant}
    (hfinish : ((new subsystem g).after offered).finish = .ok p)
    (hv : v ∈ (new subsystem g).accepted offered) : p.Covers g v.id := by
  have hrecords := new_after_records subsystem g offered
  rcases hrecords.statement?_isSome hv with ⟨own, hown⟩
  rcases statement?_eq_some.mp hown with hexempt | ⟨m, hm, _⟩
  · rcases hrecords.exists_only_branch hfinish hv hown with
      ⟨branch, statement, honly, _, hstatement, hwords⟩
    have hmem : branch ∈ (p.branches v.id.bitness).filter fun b => v.id.build ∈ b.builds := by
      rw [honly]
      exact List.mem_singleton_self branch
    rcases List.mem_filter.mp hmem with ⟨hbranch, hbuild⟩
    rw [signature_new_after] at hexempt
    exact .inr ⟨own, hexempt, branch, hbranch, of_decide_eq_true hbuild, statement, hstatement,
      hwords⟩
  · left
    rw [signature_new_after] at hm
    refine ⟨m, ?_, Prod.mk.inj (Signature.key_of_target? hm)⟩
    rw [targets_finish_new hfinish]
    exact List.mem_filterMap.mpr ⟨v, hv, hm⟩

/-- A draft that failed on a new variant of its subsystem takes in no other one with its key. -/
theorem key_ne_of_mem_accepted {before later : List Variant} {e : Error}
    (hv : v.id.subsystem = subsystem) (hnew : v.id ∉ before.map Variant.id)
    (herror : (((new subsystem g).after before).process v).result = .error e) :
    ∀ u ∈ (new subsystem g).accepted (before ++ v :: later), u.key ≠ v.key := by
  intro u hu hkey
  have husubsystem := (new_after_records subsystem g _).subsystem u hu
  rw [subsystem_new_after] at husubsystem
  -- What was taken in before has another identity, and what comes later meets the mark.
  rw [accepted_append, accepted_cons_of_error herror] at hu
  rcases List.mem_append.mp hu with hearlier | hlater
  · apply hnew
    rw [← mem_processed_new_iff (g := g) hv, mem_processed_after]
    right
    exact ⟨u, accepted_subset _ before u hearlier, husubsystem, hkey⟩
  · apply not_processed_of_mem_accepted hlater
    rw [hkey, mem_processed_process, subsystem_new_after]
    right
    exact ⟨hv, rfl⟩

theorem not_covers_of_error {before later : List Variant} {e : Error}
    (hv : v.id.subsystem = subsystem) (hnew : v.id ∉ before.map Variant.id)
    (herror : (((new subsystem g).after before).process v).result = .error e)
    (hfinish : ((new subsystem g).after (before ++ v :: later)).finish = .ok p) :
    ¬ p.Covers g v.id := by
  intro hcovers
  rcases hcovers with ⟨t, ht, hbuild, hbitness⟩ | ⟨own, hexempt, _⟩
  · rw [targets_finish_new hfinish] at ht
    rcases List.mem_filterMap.mp ht with ⟨u, hu, htarget⟩
    apply key_ne_of_mem_accepted hv hnew herror u hu
    rw [← Signature.key_of_target? htarget]
    exact Prod.ext hbuild hbitness
  · have hok : g.verdict subsystem before v = .ok () :=
      Signature.verdict_eq_ok_iff.mpr ⟨hv, hnew, .inl ⟨own, hexempt⟩⟩
    rw [process_result_after, hok] at herror
    cases herror

end Draft

namespace Generator

/-!
# Generators
-/

theorem forall₂_processAll (v : Variant) (drafts : List Draft) :
    List.Forall₂ (fun d d' => d' = d ∨ d' = (d.process v).state) drafts
      (processAll v drafts).state := by
  induction drafts with
  | nil => exact .nil
  | cons d drafts ih =>
      unfold processAll
      cases hresult : (d.process v).result with
      | error e =>
          simp only [hresult]
          exact .cons (.inr rfl) (List.forall₂_same.mpr fun _ _ => .inl rfl)
      | ok u =>
          simp only [hresult]
          exact .cons (.inr rfl) ih

/-- A draft of the generator saw some of the variants that were offered. -/
theorem forall₂_after (g : Generator) (offered : List Variant) :
    List.Forall₂ (fun d d' => ∃ seen, (∀ v ∈ seen, v ∈ offered) ∧ d' = d.after seen) g.drafts
      (g.after offered).drafts := by
  induction offered generalizing g with
  | nil => exact List.forall₂_same.mpr fun d _ => ⟨[], fun v hv => hv, rfl⟩
  | cons v offered ih =>
      have hboth := Outcome.forall₂_comp.mpr
        ⟨_, forall₂_processAll v g.drafts, ih (g.process v).state⟩
      apply hboth.imp
      intro d d' hstep
      rcases hstep with ⟨_, hfirst, seen, hseen, hd'⟩
      rcases hfirst with rfl | rfl
      · exact ⟨seen, fun u hu => List.mem_cons_of_mem _ (hseen u hu), hd'⟩
      · refine ⟨v :: seen, ?_, hd'⟩
        intro u hu
        rcases List.mem_cons.mp hu with heq | hmem
        · rw [heq]
          exact List.mem_cons_self
        · exact List.mem_cons_of_mem _ (hseen u hmem)

/-- The draft that fails keeps the mark that the variant was offered. -/
theorem exists_failed {v : Variant} {drafts : List Draft} {e : Error}
    (h : (processAll v drafts).result = .error e) :
    ∃ (i : Nat) (d : Draft), drafts[i]? = some d ∧ (d.process v).result = .error e ∧
      (processAll v drafts).state[i]? = some (d.process v).state := by
  induction drafts with
  | nil => cases h
  | cons d drafts ih =>
      unfold processAll at h ⊢
      cases hresult : (d.process v).result with
      | error e' =>
          simp only [hresult] at h ⊢
          cases h
          exact ⟨0, d, rfl, hresult, rfl⟩
      | ok u =>
          simp only [hresult] at h ⊢
          rcases ih h with ⟨i, failed, hfailed, herror, hstate⟩
          exact ⟨i + 1, failed, hfailed, herror, hstate⟩

variable {subsystem : Subsystem} {signatures : List Signature} {before later : List Variant}
  {patches : List Patch} {v : Variant}

theorem forall₂_withSignatures_after (subsystem : Subsystem) (signatures : List Signature)
    (offered : List Variant) :
    List.Forall₂ (fun g d => ∃ seen, (∀ v ∈ seen, v ∈ offered) ∧
      d = (Draft.new subsystem g).after seen) signatures
        ((withSignatures subsystem signatures).after offered).drafts :=
  List.forall₂_map_left_iff.mp ((withSignatures subsystem signatures).forall₂_after offered)

/-- A patch is what its draft was finished into, after the call and what was offered later. -/
theorem forall₂_finish_after {g : Generator}
    (hfinish : (g.after (v :: later)).finish = .ok patches) :
    List.Forall₂ (fun d p => ∃ seen, (d.after seen).finish = .ok p) (g.process v).state.drafts
      patches := by
  have hdrafts := (g.process v).state.forall₂_after later
  apply (Outcome.forall₂_comp.mpr ⟨_, hdrafts, Outcome.mapM_eq_ok.mp hfinish⟩).imp
  intro d p h
  rcases h with ⟨_, ⟨seen, _, rfl⟩, hp⟩
  exact ⟨seen, hp⟩

theorem covers_of_process_ok
    (hok : (((withSignatures subsystem signatures).after before).process v).result = .ok ())
    (hfinish : ((withSignatures subsystem signatures).after (before ++ v :: later)).finish =
      .ok patches) :
    List.Forall₂ (fun g p => p.Covers g v.id) signatures patches := by
  rw [after_append] at hfinish
  rcases processAll_ok hok with ⟨hstate, hall⟩
  have hlater := forall₂_finish_after hfinish
  change List.Forall₂ _ (processAll _ _).state _ at hlater
  rw [hstate, List.forall₂_map_left_iff] at hlater
  have hboth := Outcome.forall₂_comp.mpr
    ⟨_, forall₂_withSignatures_after subsystem signatures before,
      (List.forall₂_and_left _ _).mpr ⟨hall, hlater⟩⟩
  apply hboth.imp
  intro g p h
  rcases h with ⟨_, ⟨seen, _, rfl⟩, hresult, rest, hp⟩
  have hmem : v ∈ (Draft.new subsystem g).accepted (seen ++ v :: rest) := by
    rw [Draft.accepted_append, Draft.accepted_cons_of_ok hresult]
    exact List.mem_append_right _ List.mem_cons_self
  apply Draft.covers_of_mem_accepted _ hmem
  rw [Draft.after_append]
  exact hp

/-- What the first call failed on is missing in one of the patches. -/
theorem not_covers_of_process_error {e : Error} (hv : v.id.subsystem = subsystem)
    (hnew : v.id ∉ before.map Variant.id)
    (herror : (((withSignatures subsystem signatures).after before).process v).result = .error e)
    (hfinish : ((withSignatures subsystem signatures).after (before ++ v :: later)).finish =
      .ok patches) :
    ¬ List.Forall₂ (fun g p => p.Covers g v.id) signatures patches := by
  intro hcovers
  rw [after_append] at hfinish
  rcases exists_failed herror with ⟨i, d, hd, hderror, hstate⟩
  rcases Outcome.forall₂_getElem?
    (forall₂_withSignatures_after subsystem signatures before).flip hd with
    ⟨g, hg, seen, hseen, rfl⟩
  rcases Outcome.forall₂_getElem? (forall₂_finish_after hfinish) hstate with ⟨p, hp, rest, hrest⟩
  rcases Outcome.forall₂_getElem? hcovers hg with ⟨p', hp', hcovered⟩
  rw [hp] at hp'
  cases hp'
  have hfresh : v.id ∉ seen.map Variant.id := by
    intro hmem
    rcases List.mem_map.mp hmem with ⟨u, hu, hid⟩
    exact hnew (List.mem_map.mpr ⟨u, hseen u hu, hid⟩)
  have hfinish : ((Draft.new subsystem g).after (seen ++ v :: rest)).finish = .ok p := by
    rw [Draft.after_append]
    exact hrest
  exact Draft.not_covers_of_error hv hfresh hderror hfinish hcovered

/-- If a generator can be finished, its patches cover a variant of its subsystem that was
offered exactly if one of the calls for this variant succeeded. -/
theorem finish_covers_iff {offered : List Variant}
    (hfinish : ((withSignatures subsystem signatures).after offered).finish = .ok patches)
    (hoffered : v ∈ offered) (hv : v.id.subsystem = subsystem) :
    List.Forall₂ (fun g p => p.Covers g v.id) signatures patches ↔
      ∃ before u later, offered = before ++ u :: later ∧ u.id = v.id ∧
        (((withSignatures subsystem signatures).after before).process u).result = .ok () := by
  constructor
  · intro hcovers
    rcases List.eq_append_cons_of_mem (List.mem_map_of_mem (f := Variant.id) hoffered) with
      ⟨ids, ids', hids, hnew⟩
    rcases List.map_eq_append_iff.mp hids with ⟨before, rest, heq, hbefore, hrest⟩
    rcases List.map_eq_cons_iff.mp hrest with ⟨u, later, hcons, hid, _⟩
    rw [hcons] at heq
    refine ⟨before, u, later, heq, hid, ?_⟩
    cases hresult : (((withSignatures subsystem signatures).after before).process u).result with
    | ok o => rfl
    | error e =>
        rw [heq] at hfinish
        rw [← hbefore, ← hid] at hnew
        rw [← hid] at hcovers hv
        exact absurd hcovers (not_covers_of_process_error hv hnew hresult hfinish)
  · intro h
    rcases h with ⟨before, u, later, heq, hid, hok⟩
    rw [heq] at hfinish
    rw [← hid]
    exact covers_of_process_ok hok hfinish

/-- One build with the function and one without it, and then the first one again. -/
def partialCalls : List Variant :=
  [warningBuild 5767, Variant.decode .generalPurpose ⟨.system, 6156, .x64⟩ Draft.idleCode,
    warningBuild 5767].filterMap Except.toOption

/-- Builds of the targets, if the generator can be finished after the calls. -/
def partialTargets : Except Error (List (List Nat)) :=
  ((withSignatures .system [Signature.cryWarning]).after partialCalls).finish.map
    fun patches => patches.map fun p => p.targets.map fun t => t.variant.build

theorem finish_partialCalls :
    ∃ patches : List Patch,
      ((withSignatures .system [Signature.cryWarning]).after partialCalls).finish = .ok patches ∧
        (patches.map fun p => p.targets.map fun t => t.variant.build) = [[5767]] := by
  have htargets : partialTargets = .ok [[5767]] := by
    decide +kernel
  exact Outcome.map_eq_ok.mp htargets

theorem finish_covers_iff_first_build :
    ∃ patches, ∃ v ∈ partialCalls, v.id = ⟨.system, 5767, .x64⟩ ∧
      ((withSignatures .system [Signature.cryWarning]).after partialCalls).finish = .ok patches ∧
        List.Forall₂ (fun g p => p.Covers g v.id) [Signature.cryWarning] patches := by
  have hhead : (partialCalls.head?.map fun v =>
      (v.id, ((withSignatures .system [Signature.cryWarning]).process v).result)) =
        some (⟨.system, 5767, .x64⟩, .ok ()) := by
    decide +kernel
  rcases finish_partialCalls with ⟨patches, hfinish, _⟩
  rcases Option.map_eq_some_iff.mp hhead with ⟨v, hv, hpair⟩
  rcases Prod.mk.inj hpair with ⟨hid, hok⟩
  rcases List.head?_eq_some_iff.mp hv with ⟨later, hcalls⟩
  have hmem : v ∈ partialCalls := by
    rw [hcalls]
    exact List.mem_cons_self
  refine ⟨patches, v, hmem, hid, hfinish, ?_⟩
  apply (finish_covers_iff hfinish hmem (by rw [hid])).mpr
  exact ⟨[], v, later, hcalls, rfl, hok⟩

theorem finish_uncovered_build :
    ∃ patches, ∃ v ∈ partialCalls, v.id = ⟨.system, 6156, .x64⟩ ∧
      ((withSignatures .system [Signature.cryWarning]).after partialCalls).finish = .ok patches ∧
        ¬ List.Forall₂ (fun g p => p.Covers g v.id) [Signature.cryWarning] patches := by
  have hoffered : ⟨.system, 6156, .x64⟩ ∈ partialCalls.map Variant.id := by
    decide +kernel
  rcases finish_partialCalls with ⟨patches, hfinish, htargets⟩
  rcases List.map_eq_singleton_iff.mp htargets with ⟨p, hp, hbuilds⟩
  rcases List.mem_map.mp hoffered with ⟨v, hv, hid⟩
  refine ⟨patches, v, hv, hid, hfinish, ?_⟩
  intro hcovers
  rw [hp] at hcovers
  rcases (List.forall₂_cons.mp hcovers).1 with ⟨t, ht, hbuild, _⟩ | ⟨own, hexempt, _⟩
  · have hmem : t.variant.build ∈ p.targets.map fun t => t.variant.build :=
      List.mem_map.mpr ⟨t, ht, rfl⟩
    rw [hbuilds, hbuild, hid] at hmem
    exact absurd hmem (by decide)
  · rw [hid] at hexempt
    cases hexempt

end Generator
end JumpHooks
