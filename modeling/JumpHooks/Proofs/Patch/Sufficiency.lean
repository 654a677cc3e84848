import JumpHooks.Proofs.Patch.Completion
import JumpHooks.Proofs.Patch.Coverage
import Mathlib.Algebra.BigOperators.Group.List.Basic

/-!
# Matches with room for the jump

The patterns of the catalog ask for at least as many instructions as the jump has bytes, so what
they match always makes room for the jump, with the last of the instructions that are given up
reaching at most 14 bytes behind it. A run with these signatures never fails for want of room in a
subroutine.
-/

namespace JumpHooks

/-!
# Enough instructions
-/

namespace Match

/-- The instruction that makes enough room is the only one that reaches behind it. -/
theorem coverFrom_lt {required size total : Nat} {lengths : List Nat}
    (hle : ∀ n ∈ lengths, n ≤ Instruction.maxLength) (hsize : size < required)
    (h : coverFrom required size lengths = some total) :
    total < required + Instruction.maxLength := by
  induction lengths generalizing size with
  | nil => cases h
  | cons n lengths ih =>
      rw [List.forall_mem_cons] at hle
      unfold coverFrom at h
      by_cases henough : required ≤ size + n
      · rw [if_pos henough] at h
        cases h
        exact Nat.add_lt_add_of_lt_of_le hsize hle.1
      · rw [if_neg henough] at h
        exact ih hle.2 (Nat.not_le.mp henough) h

/-- As many instructions as the jump has bytes make room for it. -/
theorem exists_cover {m : Match} {required : Nat} (hrequired : 0 < required)
    (hlengths : ∀ n ∈ m.lengths, 1 ≤ n ∧ n ≤ Instruction.maxLength)
    (hlong : required ≤ m.lengths.length) :
    ∃ n, m.cover required = some n ∧ required ≤ n ∧ n ≤ required + 14 := by
  have hbytes : required ≤ m.byteLength :=
    hlong.trans (List.length_le_sum_of_one_le m.lengths fun n hn => (hlengths n hn).1)
  cases hcover : m.cover required with
  | none => exact absurd ((cover_eq_none_iff hrequired).mp hcover) (Nat.not_lt.mpr hbytes)
  | some n =>
      have hlt := coverFrom_lt (fun n hn => (hlengths n hn).2) hrequired hcover
      exact ⟨n, rfl, (cover_le hrequired hcover).1, Nat.le_of_lt_succ hlt⟩

end Match

namespace Variant

theorem length_lengths {v : Variant} {s : Subroutine} (h : s.stop ≤ v.size) :
    (v.lengths s).length = s.size := by
  unfold lengths body slice Subroutine.size
  rw [List.length_map, Array.length_toList, Array.size_extract]
  exact congrArg (· - s.start) (Nat.min_eq_left h)

theorem lengths_bounds (v : Variant) (s : Subroutine) :
    ∀ n ∈ v.lengths s, 1 ≤ n ∧ n ≤ Instruction.maxLength := by
  intro n hn
  rcases List.mem_map.mp hn with ⟨p, hp, rfl⟩
  rw [body_eq] at hp
  have hmem := List.mem_of_mem_drop (List.mem_of_mem_take hp)
  have hwellFormed := v.wellFormed (Array.mem_toList_iff.mp hmem)
  exact ⟨hwellFormed.length_pos, hwellFormed.length_le⟩

end Variant

namespace Signature

/-- No pattern of the catalog takes fewer instructions than the jump has bytes. -/
theorem required_le_minimum {g : Signature} (hg : g ∈ catalog) {b : Bitness} {p : Pattern}
    (hp : g.pattern b = .ok p) : HookStub.required b ≤ p.minimum := by
  unfold catalog at hg
  rcases List.mem_cons.mp hg with heq | hrest
  · rw [heq] at hp
    cases b with
    | x86 =>
        cases hp
        decide
    | x64 =>
        cases hp
        decide
  · rw [List.mem_singleton.mp hrest] at hp
    cases b with
    | x86 =>
        cases hp
        decide
    | x64 =>
        cases hp
        decide

theorem exists_cover_of_find {g : Signature} (hg : g ∈ catalog) {v : Variant}
    {s : Subroutine} (hs : g.find v = .ok s) :
    ∃ n, (Match.ofSubroutine g.name v s).cover (HookStub.required v.id.bitness) = some n ∧
      HookStub.required v.id.bitness ≤ n ∧ n ≤ HookStub.required v.id.bitness + 14 := by
  rcases accepts_of_find hg hs with ⟨p, hp, _, _, i, hi, heq⟩
  have hsegment := v.subroutineAt_isSegment hi.lt_size
  rw [← heq] at hsegment
  have hsize : p.minimum ≤ s.size := by
    rw [heq]
    exact hi.minimum
  apply Match.exists_cover (HookStub.required_pos _) (v.lengths_bounds s)
  show _ ≤ (v.lengths s).length
  rw [Variant.length_lengths (hsegment.stop_le_size hi.lt_size)]
  exact (required_le_minimum hg hp).trans hsize

end Signature

/-!
# Errors
-/

/-- The errors of a step: the variant is out of place, or its subroutine is not found. -/
inductive ProcessError : Error → Prop
  | otherSubsystem {signature : String} {id : VariantId} {expected : Subsystem} :
      ProcessError (.precondition (.otherSubsystem signature id expected))
  | processedTwice {signature : String} {id : VariantId} :
      ProcessError (.precondition (.processedTwice signature id))
  | noMatch {signature : String} {id : VariantId} : ProcessError (.noMatch signature id)
  | ambiguousMatch {signature : String} {id : VariantId} {rvas : List UInt64} :
      ProcessError (.ambiguousMatch signature id rvas)

/-- The errors of finishing: sizes that differ, or a build of Warhead that is covered although it
needs a placeholder. -/
inductive FinishError : Error → Prop
  | inconsistentSize {signature : String} {b : Bitness} {id : VariantId}
      {size expected build : Nat} :
      FinishError (.inconsistentSize signature b id size expected build)
  | caseExists {n : Nat} (h : n ∈ [687, 710, 711]) :
      FinishError (.precondition (.caseExists .x86 n))

theorem Signature.find_error {g : Signature} (hg : g ∈ catalog) {v : Variant}
    {e : Error} (h : g.find v = .error e) : ProcessError e := by
  rcases pattern_of_mem_catalog hg v.id.bitness with ⟨p, hp, hnames, _⟩
  rcases Pattern.candidates_isSearchResult hnames v with ⟨found, hfound, _⟩
  rw [find_of_mem_catalog hg, hp] at h
  change p.findUnique g.name v = .error e at h
  unfold Pattern.findUnique at h
  rw [hfound] at h
  cases found with
  | nil =>
      cases h
      exact .noMatch
  | cons s found =>
      cases found with
      | nil => cases h
      | cons t others =>
          cases h
          exact .ambiguousMatch

theorem Signature.verdict_error {g : Signature} (hg : g ∈ catalog) {v : Variant}
    {subsystem : Subsystem} {earlier : List Variant} {e : Error}
    (h : g.verdict subsystem earlier v = .error e) : ProcessError e := by
  unfold verdict at h
  split at h
  · cases h
    exact .otherSubsystem
  · split at h
    · cases h
      exact .processedTwice
    · split at h
      · cases h
      · exact find_error hg (Outcome.map_eq_error.mp h)

namespace Draft

variable {subsystem : Subsystem} {g : Signature} {offered : List Variant} {e : Error}

/-- Every target of the catalog makes room for the jump. -/
theorem exists_cover_of_mem (hg : g ∈ Signature.catalog)
    {t : Match} (ht : t ∈ ((new subsystem g).after offered).targets) :
    ∃ n, t.cover (HookStub.required t.variant.bitness) = some n := by
  have hrecords := new_after_records subsystem g offered
  rcases hrecords.exists_of_target ht with ⟨v, _, _, _, s, hfind, heq⟩
  rw [signature_new_after] at hfind heq
  rcases Signature.exists_cover_of_find hg hfind with ⟨n, hn, _⟩
  rw [heq]
  exact ⟨n, hn⟩

theorem finish_error (hg : g ∈ Signature.catalog)
    (h : ((new subsystem g).after offered).finish = .error e) : FinishError e := by
  rcases finish_eq_error_iff.mp h with hhooks | ⟨_, hplaceholders⟩
  · rcases hooks_eq_error_iff.mp hhooks with ⟨_, _, b, _, _, _, hcommon⟩
    cases HookSize.common_eq_error_iff.mp hcommon with
    | @tooSmall before later m size hms hbefore hm =>
        have hown : m ∈ HookSize.own b ((new subsystem g).after offered).targets := by
          rw [hms]
          simp
        rcases HookSize.mem_own.mp hown with ⟨hmem, hbitness⟩
        rcases exists_cover_of_mem hg hmem with ⟨n, hn⟩
        rw [hbitness, hm] at hn
        cases hn
    | otherSize hms hbefore hm hother => exact .inconsistentSize
  · have hrecords := new_after_records subsystem g offered
    have hbitness := bitness_after subsystem g offered
    rcases (hrecords.placeholders_eq_error_iff hbitness).mp hplaceholders with ⟨_, n, hn, rfl⟩
    exact .caseExists (List.mem_of_find?_eq_some hn)

end Draft

/-- The sizes that targets agree on are never too small for a stub. -/
theorem HookStub.exists_assemble {signature : String} {b : Bitness} {targets : List Match}
    {size : Nat} (h : HookSize.stubSize signature b targets = .ok size) :
    ∃ s, assemble b size = .ok s := by
  have hrequired : required b ≤ size := by
    rcases HookSize.stubSize_eq_ok.mp h with ⟨hcover, hbare⟩
    by_cases hnone : ∀ m ∈ targets, m.variant.bitness ≠ b
    · exact (hbare hnone).ge
    · simp only [ne_eq, not_forall, not_not] at hnone
      rcases hnone with ⟨m, hm, hbitness⟩
      exact (Match.cover_le (required_pos b) (hcover m hm hbitness)).1
  exact ⟨_, assemble_of_le hrequired⟩

theorem Generator.finish_error {subsystem : Subsystem} {offered : List Variant} {e : Error}
    (h : ((new subsystem).after offered).finish = .error e) : FinishError e := by
  rcases Outcome.mapM_eq_error.mp h with ⟨before, d, later, hdrafts, _, hd⟩
  have hmem : d ∈ ((new subsystem).after offered).drafts := by
    rw [hdrafts]
    simp
  rcases Outcome.exists_of_mem
    (forall₂_withSignatures_after subsystem (Signature.inSubsystem subsystem) offered) hmem with
    ⟨g, hg, seen, _, rfl⟩
  exact Draft.finish_error (List.mem_of_mem_filter hg) hd

theorem Generation.FirstFailure.error {κ : Type} {load : κ → Except Error Variant}
    {subsystem : Subsystem} {signatures : List Signature} {keys : List κ} {n : Nat} {e : Error}
    (h : FirstFailure load subsystem signatures keys n e)
    (hsignatures : ∀ g ∈ signatures, g ∈ Signature.catalog) :
    (∃ k ∈ keys, load k = .error e) ∨ ProcessError e ∨ FinishError e := by
  cases h with
  | @loading before k later vs e hkeys hbefore hload =>
      left
      refine ⟨k, ?_, hload⟩
      rw [hkeys]
      simp
  | @processing before k later vs v e hkeys hbefore hk hverdict =>
      right; left
      rcases hverdict with ⟨earlier, g, rest, hsplit, _, hg⟩
      have hcatalog := hsignatures g (by rw [hsplit]; simp)
      exact Signature.verdict_error hcatalog hg
  | @finishing vs e hsmooth hfinish =>
      right; right
      rcases hfinish with ⟨earlier, g, rest, hsplit, _, hg⟩
      have hcatalog := hsignatures g (by rw [hsplit]; simp)
      exact Draft.finish_error hcatalog hg

/-- A match of the catalog makes room for the jump and gives up at most 14 bytes more. So no run of
the catalog fails because a subroutine or a stub is too small. It fails with an error of loading,
of a variant that is out of place or does not match once, of sizes that differ, or of a build of
Warhead that is covered although it needs a placeholder. -/
theorem catalog_sufficient :
    (∀ g ∈ Signature.catalog, ∀ v s, g.find v = .ok s →
      ∃ n, (Match.ofSubroutine g.name v s).cover (HookStub.required v.id.bitness) = some n ∧
        HookStub.required v.id.bitness ≤ n ∧ n ≤ HookStub.required v.id.bitness + 14) ∧
    (∀ subsystem offered,
      (∀ e, ((Generator.new subsystem).after offered).finish = .error e → FinishError e) ∧
        ∀ d ∈ ((Generator.new subsystem).after offered).drafts, ∀ b size,
          HookSize.stubSize d.signature.name b d.targets = .ok size →
            ∃ stub, HookStub.assemble b size = .ok stub) ∧
    ∀ (κ : Type) (load : κ → Except Error Variant) subsystem keys e,
      (generate load subsystem keys).result = .error e →
        (∃ k ∈ keys, load k = .error e) ∨ ProcessError e ∨ FinishError e := by
  refine ⟨?_, ?_, ?_⟩
  · intro g hg v s hfind
    exact Signature.exists_cover_of_find hg hfind
  · intro subsystem offered
    refine ⟨fun e => Generator.finish_error, ?_⟩
    intro d _ b size hsize
    exact HookStub.exists_assemble hsize
  · intro κ load subsystem keys e h
    rcases Generation.run_eq_error.mp h with ⟨n, hfailure⟩
    apply hfailure.error
    intro g hg
    exact List.mem_of_mem_filter hg

/-- A function that begins as the catalog wants it, with this store of its first argument. -/
def storingCode (store : List UInt8) : Section where
  image := ⟨0x180000000, 0x100000⟩
  address := 0x180001000
  bytes := [0x48, 0x85, 0xC9, 0x74, 33 + UInt8.ofNat store.length] ++ store ++
    [0x48, 0x89, 0x54, 0x24, 0x10, 0x4C, 0x89, 0x44, 0x24, 0x18, 0x4C, 0x89, 0x4C, 0x24, 0x20,
      0xB8, 0x38, 0x10, 0, 0, 0xE8, 0, 0x10, 0, 0] ++ List.replicate 8 0x90 ++ [0xC3]

/-- The first argument is stored on the stack by one build, and through a register by the other
one. -/
def unevenBuilds : List Variant :=
  [(5767, [0x48, 0x89, 0x4C, 0x24, 0x08]), (6156, [0x48, 0x89, 0x08])].filterMap
    fun (build, store) =>
      (Variant.decode .generalPurpose ⟨.game, build, .x64⟩ (storingCode store)).toOption

theorem catalog_sufficient_uneven :
    (∃ v s n, warningBuild 6156 = .ok v ∧ Signature.cryWarning.find v = .ok s ∧
      (Match.ofSubroutine "HookCryWarning" v s).cover 12 = some n ∧ 12 ≤ n ∧ n ≤ 26) ∧
    ((Generator.new .game).after unevenBuilds).finish =
      .error (.inconsistentSize "HookGameWarning" .x64 ⟨.game, 6156, .x64⟩ 13 15 5767) ∧
    FinishError (.inconsistentSize "HookGameWarning" .x64 ⟨.game, 6156, .x64⟩ 13 15 5767) ∧
    ∃ e, (generate warningBuild .system [6156, 5767, 6156]).result = .error e ∧
      ((∃ k ∈ [6156, 5767, 6156], warningBuild k = .error e) ∨ ProcessError e ∨
        FinishError e) := by
  rcases catalog_sufficient with ⟨hcover, hfinish, hgenerate⟩
  have hfind : ∃ v, warningBuild 6156 = .ok v ∧ v.id.bitness = .x64 ∧
      Signature.cryWarning.find v = .ok ⟨0, 32⟩ :=
    ⟨_, rfl, rfl, by decide +kernel⟩
  have herror : ((Generator.new .game).after unevenBuilds).finish =
      .error (.inconsistentSize "HookGameWarning" .x64 ⟨.game, 6156, .x64⟩ 13 15 5767) := by
    decide +kernel
  have htwice : (generate warningBuild .system [6156, 5767, 6156]).result =
      .error (.precondition (.processedTwice "HookCryWarning" ⟨.system, 6156, .x64⟩)) := by
    decide +kernel
  have hsizes := (hfinish .game unevenBuilds).1 _ herror
  refine ⟨?_, herror, hsizes, _, htwice, ?_⟩
  · rcases hfind with ⟨v, hv, hbitness, hs⟩
    rcases hcover Signature.cryWarning (by simp [Signature.catalog]) v _ hs with
      ⟨n, hn, hle, hge⟩
    rw [hbitness] at hn hle hge
    exact ⟨v, _, n, hv, hs, hn, hle, hge⟩
  · exact hgenerate Nat warningBuild .system [6156, 5767, 6156] _ htwice

end JumpHooks
