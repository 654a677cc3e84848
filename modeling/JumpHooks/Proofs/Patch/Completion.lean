import JumpHooks.Proofs.Hook.Cover
import JumpHooks.Proofs.Patch.Bookkeeping
import Mathlib.Data.Finset.Card

/-!
# Completion

A draft can be finished if the targets of each instruction set agree on a size, and if there is
room for the placeholders that a patch for several 32-bit builds needs. The stubs are assembled
first, so a size that is not agreed on is what an error is about even if there is no room.
-/

namespace JumpHooks

/-!
# Stubs
-/

namespace HookStub

/-- The stub for targets that agreed on a size, or the bare jump if there are none. -/
def fitted (b : Bitness) (agreed : Option Nat) : HookStub :=
  ⟨b, jump b ++ List.replicate (agreed.getD (required b) - required b) padding⟩

theorem assemble_of_le {b : Bitness} {size : Nat} (h : required b ≤ size) :
    assemble b size = .ok (fitted b (some size)) :=
  if_neg (Nat.not_lt.mpr h)

theorem size_fitted (b : Bitness) (agreed : Option Nat) :
    (fitted b agreed).size = required b + (agreed.getD (required b) - required b) := by
  show encodedSize (jump b ++ List.replicate _ padding) = _
  rw [encodedSize_append, encodedSize_padding]
  rfl

/-- A size that targets agree on leaves room for the jump, so nothing but the sizes can make a
stub fail. -/
theorem forTargets_eq (signature : String) (b : Bitness) (targets : List Match) :
    forTargets signature b targets =
      (HookSize.common signature b (required b) targets).map (fitted b) := by
  have hstub : forTargets signature b targets =
      HookSize.common signature b (required b) targets >>= fun agreed =>
        assemble b (agreed.getD (required b)) := by
    unfold forTargets HookSize.stubSize
    cases HookSize.common signature b (required b) targets <;> rfl
  rw [hstub]
  cases hcommon : HookSize.common signature b (required b) targets with
  | error e => rfl
  | ok agreed =>
      cases agreed with
      | none => exact assemble_of_le (Nat.le_refl (required b))
      | some size =>
          rcases HookSize.common_eq_ok_some_iff.mp hcommon with ⟨hne, hcover⟩
          rcases List.exists_mem_of_ne_nil _ hne with ⟨m, hm⟩
          exact assemble_of_le (Match.cover_le (required_pos b) (hcover m hm)).1

end HookStub

namespace Draft

/-!
# Covered builds
-/

/-- The builds of an instruction set that have a target or an exemption. -/
def covered (d : Draft) (b : Bitness) : Finset Nat :=
  ((HookSize.own b d.targets).map fun t => t.variant.build).toFinset ∪
    ((d.cases b).cases.map Case.build).toFinset

namespace Records

variable {d : Draft} {vs : List Variant}

theorem mem_covered (h : d.Records vs) {b : Bitness} {n : Nat} :
    n ∈ d.covered b ↔ ∃ v ∈ vs, v.key = (n, b) := by
  unfold covered
  rw [Finset.mem_union, List.mem_toFinset, List.mem_toFinset]
  constructor
  · intro hn
    rcases hn with htarget | hcase
    · rcases List.mem_map.mp htarget with ⟨t, ht, hbuild⟩
      rcases HookSize.mem_own.mp ht with ⟨ht, hbitness⟩
      rcases h.exists_of_target ht with ⟨v, hv, hid, _⟩
      refine ⟨v, hv, ?_⟩
      unfold Variant.key
      rw [hid, hbuild, hbitness]
    · rcases List.mem_map.mp hcase with ⟨c, hc, hbuild⟩
      rcases h.exists_of_case hc with ⟨v, hv, hid, _⟩
      refine ⟨v, hv, ?_⟩
      unfold Variant.key
      rw [hid, hbuild]
  · intro hn
    rcases hn with ⟨v, hv, hkey⟩
    cases hexempt : d.signature.exemption v.id with
    | some statement =>
        right
        rw [BuildCases.mem_builds_iff]
        exact ⟨[statement], (h.exempt _ _ _).mpr ⟨v, hv, hkey, statement, hexempt, rfl⟩⟩
    | none =>
        left
        rcases h.handled v hv hexempt with ⟨t, htarget⟩
        have ht : t ∈ d.targets := by
          rw [h.targets]
          exact List.mem_filterMap.mpr ⟨v, hv, htarget⟩
        rcases Prod.mk.inj ((Signature.key_of_target? htarget).trans hkey) with
          ⟨hbuild, hbitness⟩
        exact List.mem_map.mpr ⟨t, HookSize.mem_own.mpr ⟨ht, hbitness⟩, hbuild⟩

theorem mem_builds_withFills (h : d.Records vs) {b : Bitness} {n : Nat} :
    n ∈ (d.withFills.cases b).cases.map Case.build ↔ n ∈ d.covered b := by
  rw [BuildCases.mem_builds_iff, h.mem_covered]
  constructor
  · intro hn
    rcases hn with ⟨statements, hstatements⟩
    rcases (h.statements?_withFills _ _ _).mp hstatements with ⟨v, hv, hkey, _⟩
    exact ⟨v, hv, hkey⟩
  · intro hn
    rcases hn with ⟨v, hv, hkey⟩
    rcases h.statement?_isSome hv with ⟨own, hown⟩
    exact ⟨[own], (h.statements?_withFills _ _ _).mpr ⟨v, hv, hkey, own, hown, rfl⟩⟩

theorem size_withFills (h : d.Records vs) (b : Bitness) :
    (d.withFills.cases b).size = (d.covered b).card := by
  have hbuilds : ((d.withFills.cases b).cases.map Case.build).toFinset = d.covered b := by
    apply Finset.ext
    intro n
    rw [List.mem_toFinset, h.mem_builds_withFills]
  rw [← hbuilds, List.toFinset_card_of_nodup (BuildCases.builds_nodup _), List.length_map]
  rfl

theorem contains_withFills (h : d.Records vs) (b : Bitness) :
    (d.withFills.cases b).contains = fun n => decide (n ∈ d.covered b) := by
  funext n
  rw [Bool.eq_iff_iff, BuildCases.contains_iff, h.mem_builds_withFills, decide_eq_true_iff]

end Records

theorem bitness_withFills (d : Draft) (b : Bitness) :
    (d.withFills.cases b).bitness = (d.cases b).bitness := by
  have hfold : ∀ ms : List Match, ((ms.foldl fill d).cases b).bitness =
      (d.cases b).bitness := by
    intro ms
    induction ms using List.reverseRecOn with
    | nil => rfl
    | append_singleton ms m ih =>
        rw [List.foldl_append, ← ih]
        show (((ms.foldl fill d).fill m).cases b).bitness = _
        unfold fill
        rw [cases_push]
        split
        · rfl
        · rfl
  exact hfold d.targets

/-!
# The two conditions
-/

/-- Either there is nothing to hook, or the targets of each instruction set agree on a size. -/
def SizesAgree (d : Draft) : Prop :=
  d.targets = [] ∨ ∀ b, ∃ agreed,
    HookSize.common d.signature.name b (HookStub.required b) d.targets = .ok agreed

/-- The error is about sizes: those of 64-bit targets, or else those of 32-bit ones. -/
def SizeError (d : Draft) (e : Error) : Prop :=
  d.targets ≠ [] ∧ Outcome.FirstError
    (fun b => HookSize.common d.signature.name b (HookStub.required b) d.targets)
    Bitness.hookOrder e

/-- No placeholders are needed, or none of their builds is covered. -/
def HasRoom (d : Draft) : Prop :=
  (d.covered .x86).card ≤ 1 ∨ Disjoint (d.covered .x86) {687, 710, 711}

/-- The error is about the first build that is covered and needs a placeholder. -/
def RoomError (d : Draft) (e : Error) : Prop :=
  1 < (d.covered .x86).card ∧ ∃ n,
    [687, 710, 711].find? (fun n => n ∈ d.covered .x86) = some n ∧
      e = .precondition (.caseExists .x86 n)

/-- The stub is the jump of its instruction set, filled up to the bytes that each target gives
up, or bare if there are no targets. -/
structure StubFor (d : Draft) (b : Bitness) (s : HookStub) : Prop where
  bitness : s.bitness = b
  jumps : s.body = HookStub.jump b ++
    List.replicate (s.size - HookStub.required b) HookStub.padding
  covers : ∀ t ∈ HookSize.own b d.targets, t.cover (HookStub.required b) = some s.size
  bare : HookSize.own b d.targets = [] → s.body = HookStub.jump b

theorem stubFor_fitted {d : Draft} {b : Bitness} {agreed : Option Nat}
    (h : HookSize.common d.signature.name b (HookStub.required b) d.targets = .ok agreed) :
    d.StubFor b (HookStub.fitted b agreed) := by
  have hstub := HookStub.forTargets_eq d.signature.name b d.targets
  rw [h] at hstub
  constructor
  · rfl
  · rw [HookStub.size_fitted, Nat.add_sub_cancel_left]
    rfl
  · intro t ht
    rcases HookSize.mem_own.mp ht with ⟨ht, hbitness⟩
    exact (HookStub.forTargets_ok hstub).2 t ht hbitness
  · intro hnil
    rw [HookSize.common_eq_ok_none_iff.mpr hnil, Except.ok.injEq] at h
    rw [← h]
    show HookStub.jump b ++ List.replicate (HookStub.required b - HookStub.required b) _ = _
    rw [Nat.sub_self]
    exact List.append_nil _

theorem hooks_eq (d : Draft) : d.hooks = if d.targets = [] then .ok [] else
    Bitness.hookOrder.mapM fun b =>
      (HookSize.common d.signature.name b (HookStub.required b) d.targets).map
        (HookStub.fitted b) := by
  unfold hooks
  simp only [HookStub.forTargets_eq, List.isEmpty_iff]

theorem hooks_eq_error_iff {d : Draft} {e : Error} : d.hooks = .error e ↔ d.SizeError e := by
  unfold SizeError
  rw [hooks_eq, ← Outcome.firstError_map_right (g := HookStub.fitted), ← Outcome.mapM_eq_error]
  by_cases hnil : d.targets = []
  · simp [hnil]
  · simp [hnil]

theorem exists_hooks_iff {d : Draft} : (∃ hooks, d.hooks = .ok hooks) ↔ d.SizesAgree := by
  unfold SizesAgree
  rw [hooks_eq]
  by_cases hnil : d.targets = []
  · simp [hnil]
  · rw [if_neg hnil, Outcome.exists_mapM_eq_ok_iff]
    simp only [Outcome.exists_map_eq_ok, hnil, false_or]
    constructor
    · intro h b
      apply h
      cases b <;> decide
    · intro h b _
      exact h b

/-- There is one stub for each instruction set, or none if there are no targets. -/
theorem hooks_ok {d : Draft} {hooks : List HookStub} (h : d.hooks = .ok hooks) :
    (hooks = [] ↔ d.targets = []) ∧ (d.targets ≠ [] →
      ∃ s64 s86, hooks = [s64, s86] ∧ d.StubFor .x64 s64 ∧ d.StubFor .x86 s86) := by
  rw [hooks_eq] at h
  by_cases hnil : d.targets = []
  · rw [if_pos hnil] at h
    cases h
    exact ⟨iff_of_true rfl hnil, fun hne => absurd hnil hne⟩
  · rw [if_neg hnil] at h
    have hsteps := Outcome.mapM_eq_ok.mp h
    unfold Bitness.hookOrder at hsteps
    rcases List.forall₂_cons_left_iff.mp hsteps with ⟨s64, _, h64, hrest, rfl⟩
    rcases List.forall₂_cons_left_iff.mp hrest with ⟨s86, _, h86, hend, rfl⟩
    rw [List.forall₂_nil_left_iff.mp hend]
    rcases Outcome.map_eq_ok.mp h64 with ⟨agreed64, hagreed64, rfl⟩
    rcases Outcome.map_eq_ok.mp h86 with ⟨agreed86, hagreed86, rfl⟩
    refine ⟨iff_of_false (List.cons_ne_nil _ _) hnil, fun _ => ?_⟩
    exact ⟨_, _, rfl, stubFor_fitted hagreed64, stubFor_fitted hagreed86⟩

theorem Records.exists_placeholders_iff {d : Draft} {vs : List Variant} (h : d.Records vs) :
    (∃ x86, withPlaceholders d.withFills.x86 = .ok x86) ↔ d.HasRoom := by
  have hsize : d.withFills.x86.size = (d.covered .x86).card := h.size_withFills .x86
  have hnone : ∀ n, d.withFills.x86.statements? n = none ↔ n ∉ d.covered .x86 := by
    intro n
    rw [← h.mem_builds_withFills, ← BuildCases.contains_iff, Bool.not_eq_true]
    exact BuildCases.statements?_eq_none
  unfold HasRoom
  rw [exists_withPlaceholders_iff, hsize, Finset.disjoint_right]
  simp only [hnone]
  simp [Game.builds]

theorem Records.placeholders_eq_error_iff {d : Draft} {vs : List Variant} (h : d.Records vs)
    (hbitness : ∀ b, (d.cases b).bitness = b) {e : Error} :
    withPlaceholders d.withFills.x86 = .error e ↔ d.RoomError e := by
  have hsize : d.withFills.x86.size = (d.covered .x86).card := h.size_withFills .x86
  have hcontains : d.withFills.x86.contains = fun n => decide (n ∈ d.covered .x86) :=
    h.contains_withFills .x86
  have hx86 : d.withFills.x86.bitness = .x86 := (d.bitness_withFills .x86).trans (hbitness .x86)
  unfold withPlaceholders RoomError
  rw [hsize]
  by_cases hle : (d.covered .x86).card ≤ 1
  · rw [if_pos hle]
    simp [Nat.not_lt.mpr hle]
  · rw [if_neg hle, BuildCases.placeholders_eq_error_iff (by decide), hcontains, hx86]
    simp [Nat.not_le.mp hle, Game.builds]

/-!
# What is added
-/

/-- The branches have the builds that are covered. With more than one 32-bit build they also have
the builds of Warhead, for each of which a placeholder stands. There is a stub for each
instruction set, or none if there are no targets. -/
structure Completes (d : Draft) (taken : List Variant) (p : Patch) : Prop where
  builds64 : ∀ n, n ∈ (p.branches .x64).flatMap Branch.builds ↔
    ∃ v ∈ taken, v.id.bitness = .x64 ∧ v.id.build = n
  builds86 : ((p.branches .x86).flatMap Branch.builds).toFinset =
    if (d.covered .x86).card ≤ 1 then d.covered .x86 else d.covered .x86 ∪ {687, 710, 711}
  placeholders : 1 < (d.covered .x86).card → ∀ branch ∈ p.branches .x86, ∀ n ∈ branch.builds,
    n ∈ [687, 710, 711] → ∃ statement, branch.statements = [statement] ∧
      Text.words statement = Text.words unsupported
  hooks_nil : p.hooks = [] ↔ d.targets = []
  hooks : d.targets ≠ [] →
    ∃ s64 s86, p.hooks = [s64, s86] ∧ d.StubFor .x64 s64 ∧ d.StubFor .x86 s86

theorem Records.mem_builds_finish {d : Draft} {vs : List Variant} (h : d.Records vs) {p : Patch}
    (hfinish : d.finish = .ok p) {b : Bitness} {n : Nat} :
    n ∈ (p.branches b).flatMap Branch.builds ↔
      n ∈ d.covered b ∨ b = .x86 ∧ 1 < (d.covered .x86).card ∧ n ∈ [687, 710, 711] := by
  have hsize : d.withFills.x86.size = (d.covered .x86).card := h.size_withFills .x86
  rcases h.finish hfinish b with ⟨x, hbranches, hx⟩
  rw [hbranches, BuildCases.branches_builds, BuildCases.mem_builds_iff, h.mem_covered, ← hsize]
  constructor
  · intro hn
    rcases hn with ⟨statements, hstatements⟩
    rcases (hx n statements).mp hstatements with ⟨v, hv, hkey, _⟩ | ⟨hb, hmany, hbuild, _⟩
    · exact .inl ⟨v, hv, hkey⟩
    · exact .inr ⟨hb, hmany, hbuild⟩
  · intro hn
    rcases hn with ⟨v, hv, hkey⟩ | ⟨hb, hmany, hbuild⟩
    · rcases h.statement?_isSome hv with ⟨own, hown⟩
      exact ⟨[own], (hx n _).mpr (.inl ⟨v, hv, hkey, own, hown, rfl⟩)⟩
    · exact ⟨[unsupported], (hx n _).mpr (.inr ⟨hb, hmany, hbuild, rfl⟩)⟩

/-- A build that needs a placeholder has no other statement. -/
theorem Records.placeholder_of_mem {d : Draft} {vs : List Variant} (h : d.Records vs)
    {p : Patch} (hfinish : d.finish = .ok p) (hmany : 1 < (d.covered .x86).card)
    {branch : Branch} (hbranch : branch ∈ p.branches .x86) {n : Nat} (hn : n ∈ branch.builds)
    (hbuild : n ∈ [687, 710, 711]) : ∃ statement, branch.statements = [statement] ∧
      Text.words statement = Text.words unsupported := by
  rcases h.finish hfinish .x86 with ⟨x, hbranches, hx⟩
  have hsize : d.withFills.x86.size = (d.covered .x86).card := h.size_withFills .x86
  rw [hbranches] at hbranch
  rcases x.branches_agree branch hbranch n hn with ⟨own, hown, hsame⟩
  have hplaceholder : x.statements? n = some [unsupported] := by
    rw [← hsize] at hmany
    exact (hx n _).mpr (.inr ⟨rfl, hmany, hbuild, rfl⟩)
  rw [hplaceholder, Option.some.injEq] at hown
  rw [← hown] at hsame
  exact BuildCases.exists_of_sameStatements hsame

theorem Records.completes {d : Draft} {vs : List Variant} (h : d.Records vs) {p : Patch}
    (hfinish : d.finish = .ok p) : d.Completes vs p := by
  rcases finish_ok hfinish with ⟨hooks, x86, hhooks, _, hp⟩
  have hhooks' : p.hooks = hooks := by rw [hp]
  constructor
  · intro n
    rw [h.mem_builds_finish hfinish, h.mem_covered]
    simp [Variant.key, and_comm]
  · apply Finset.ext
    intro n
    rw [List.mem_toFinset, h.mem_builds_finish hfinish]
    by_cases hle : (d.covered .x86).card ≤ 1
    · rw [if_pos hle]
      simp [Nat.not_lt.mpr hle]
    · rw [if_neg hle, Finset.mem_union]
      simp [Nat.not_le.mp hle]
  · intro hmany branch hbranch n hn hbuild
    exact h.placeholder_of_mem hfinish hmany hbranch hn hbuild
  · rw [hhooks']
    exact (hooks_ok hhooks).1
  · rw [hhooks']
    exact (hooks_ok hhooks).2

theorem exists_finish_iff {d : Draft} : (∃ p, d.finish = .ok p) ↔
    (∃ hooks, d.hooks = .ok hooks) ∧ ∃ x86, withPlaceholders d.withFills.x86 = .ok x86 := by
  constructor
  · intro h
    rcases h with ⟨p, hp⟩
    rcases finish_ok hp with ⟨hooks, x86, hhooks, hx86, _⟩
    exact ⟨⟨hooks, hhooks⟩, x86, hx86⟩
  · intro h
    rcases h with ⟨⟨hooks, hhooks⟩, x86, hx86⟩
    exact ⟨_, Outcome.bind_eq_ok.mpr ⟨hooks, hhooks, Outcome.bind_eq_ok.mpr ⟨x86, hx86, rfl⟩⟩⟩

/-- The stubs are assembled before the placeholders are added. -/
theorem finish_eq_error_iff {d : Draft} {e : Error} : d.finish = .error e ↔
    d.hooks = .error e ∨
      (∃ hooks, d.hooks = .ok hooks) ∧ withPlaceholders d.withFills.x86 = .error e := by
  unfold finish
  rw [Outcome.bind_eq_error]
  apply or_congr Iff.rfl
  constructor
  · intro h
    rcases h with ⟨hooks, hhooks, hrest⟩
    rcases Outcome.bind_eq_error.mp hrest with hx86 | ⟨x86, _, hdone⟩
    · exact ⟨⟨hooks, hhooks⟩, hx86⟩
    · cases hdone
  · intro h
    rcases h with ⟨⟨hooks, hhooks⟩, hx86⟩
    exact ⟨hooks, hhooks, Outcome.bind_eq_error.mpr (.inl hx86)⟩

/-- A draft can be finished exactly if the sizes agree and the placeholders have room. An error
about sizes goes before one about room. -/
theorem finish_exact (subsystem : Subsystem) (g : Signature) (offered : List Variant) :
    ((∃ p, ((new subsystem g).after offered).finish = .ok p) ↔
      ((new subsystem g).after offered).SizesAgree ∧
        ((new subsystem g).after offered).HasRoom) ∧
    (∀ e, ((new subsystem g).after offered).finish = .error e ↔
      ((new subsystem g).after offered).SizeError e ∨
        ((new subsystem g).after offered).SizesAgree ∧
          ((new subsystem g).after offered).RoomError e) ∧
    ∀ p, ((new subsystem g).after offered).finish = .ok p →
      ((new subsystem g).after offered).Completes ((new subsystem g).accepted offered) p := by
  have hrecords := new_after_records subsystem g offered
  have hbitness := bitness_after subsystem g offered
  refine ⟨?_, ?_, ?_⟩
  · rw [exists_finish_iff, exists_hooks_iff, hrecords.exists_placeholders_iff]
  · intro e
    rw [finish_eq_error_iff, hooks_eq_error_iff, exists_hooks_iff,
      hrecords.placeholders_eq_error_iff hbitness]
  · intro p hfinish
    exact hrecords.completes hfinish

/-- Two 32-bit builds with the function. -/
def pairedRun : List Variant :=
  [codeBuild ⟨.game, 6156, .x86⟩ [0x90, 0x90, 0x90, 0x90, 0x90, 0x90, 0x90, 0xC3],
    codeBuild ⟨.game, 5767, .x86⟩ [0x90, 0x90, 0x90, 0x90, 0x90, 0x90, 0x90, 0xC3]].filterMap
      Except.toOption

/-- And one that is exempt, although it needs a placeholder. -/
def crowdedRun : List Variant :=
  pairedRun ++ [codeBuild ⟨.game, 711, .x86⟩ [0xC3]].filterMap Except.toOption

theorem finish_exact_paired :
    (∃ p s64 s86, ((new .game idle).after pairedRun).finish = .ok p ∧
      ((p.branches .x86).flatMap Branch.builds).toFinset = {687, 710, 711, 5767, 6156} ∧
        p.hooks = [s64, s86] ∧ s64.body = HookStub.jump .x64) ∧
      ((new .game idle).after crowdedRun).finish =
        .error (.precondition (.caseExists .x86 711)) := by
  constructor
  · rcases finish_exact .game idle pairedRun with ⟨hok, _, hcompletes⟩
    have hagree : ((new .game idle).after pairedRun).SizesAgree := by
      right
      intro b
      cases b
      · exact ⟨some 7, by decide +kernel⟩
      · exact ⟨none, by decide +kernel⟩
    have hcovered : ((new .game idle).after pairedRun).covered .x86 = {5767, 6156} := by
      decide +kernel
    rcases hok.mpr ⟨hagree, .inr (by rw [hcovered]; decide)⟩ with ⟨p, hp⟩
    have hcompleted := hcompletes p hp
    rcases hcompleted.hooks (by decide +kernel) with ⟨s64, s86, hhooks, h64, _⟩
    refine ⟨p, s64, s86, hp, ?_, hhooks, h64.bare (by decide +kernel)⟩
    rw [hcompleted.builds86, hcovered]
    decide
  · rcases finish_exact .game idle crowdedRun with ⟨_, herror, _⟩
    apply (herror _).mpr
    have hagree : ((new .game idle).after crowdedRun).SizesAgree := by
      right
      intro b
      cases b
      · exact ⟨some 7, by decide +kernel⟩
      · exact ⟨none, by decide +kernel⟩
    have hcovered : ((new .game idle).after crowdedRun).covered .x86 = {711, 5767, 6156} := by
      decide +kernel
    refine .inr ⟨hagree, ?_, 711, ?_, rfl⟩
    · rw [hcovered]
      decide
    · rw [hcovered]
      decide

end Draft
end JumpHooks
