import JumpHooks.Proofs.Patch.Overwrite
import JumpHooks.Proofs.Signature.Shared
import Mathlib.Order.Interval.Set.Disjoint

/-!
# What two patches overwrite

Patches are made without regard to each other. Two of them overwrite different code, unless
their signatures find the same subroutine; then they overwrite the same bytes.
-/

namespace JumpHooks

/-!
# Signatures of patches
-/

namespace Generation

variable {κ : Type} {load : κ → Except Error Variant} {subsystem : Subsystem} {keys : List κ}
  {patches : List Patch}

theorem name_finish {g : Signature} {vs : List Variant} {p : Patch}
    (h : ((Draft.new subsystem g).after vs).finish = .ok p) : p.name = g.name := by
  rcases Draft.finish_ok h with ⟨_, _, _, _, hp⟩
  rw [hp, Draft.signature_new_after]

/-- There is one patch for each signature, and their names differ. -/
theorem generate_names_nodup (h : (generate load subsystem keys).result = .ok patches) :
    (patches.map Patch.name).Nodup := by
  rcases run_ok h with ⟨vs, _, _, hpatches⟩
  have hnames : (Signature.inSubsystem subsystem).map Signature.name =
      patches.map Patch.name := by
    rw [← List.forall₂_eq_eq_eq, List.forall₂_map_left_iff, List.forall₂_map_right_iff]
    apply (List.forall₂_map_left_iff.mp hpatches).imp
    intro g p hfinish
    exact (name_finish hfinish).symm
  rw [← hnames]
  have hcatalog : (Signature.catalog.map Signature.name).Nodup := by decide
  exact hcatalog.sublist (List.filter_sublist.map Signature.name)

/-- The targets of a patch in a variant that was loaded are what its signature finds in this
variant. -/
theorem generate_found (h : (generate load subsystem keys).result = .ok patches) {p : Patch}
    (hp : p ∈ patches) :
    ∃ g ∈ Signature.catalog, p.name = g.name ∧ ∀ k ∈ keys, ∀ v, load k = .ok v →
      ∀ t ∈ p.targets, t.variant = v.id →
        ∃ s stub, g.find v = .ok s ∧ t = Match.ofSubroutine g.name v s ∧
          p.hook? v.id.bitness = some stub ∧
            t.cover (HookStub.required v.id.bitness) = some stub.size := by
  rcases generate_ok h hp with ⟨g, hg, vs, hvs, hrecords, hfinish⟩
  refine ⟨g, List.mem_of_mem_filter hg, name_finish hfinish, ?_⟩
  intro k hk v hload t ht hvariant
  rcases Outcome.exists_of_mem hvs.flip hk with ⟨loaded, hv, hloaded⟩
  rw [hload] at hloaded
  cases hloaded
  rcases Draft.finish_hook? hfinish ht with ⟨stub, hstub, hcover⟩
  rw [Draft.targets_finish hfinish, hrecords.targets, Draft.signature_new_after] at ht
  rcases List.mem_filterMap.mp ht with ⟨w, hw, htarget⟩
  rcases Signature.target?_eq_some htarget with ⟨_, s, hfind, heq⟩
  have hkey : w.key = v.key := by
    rw [heq] at hvariant
    change w.id = v.id at hvariant
    unfold Variant.key
    rw [hvariant]
  rw [List.inj_on_of_nodup_map hrecords.keys hw hv hkey] at hfind heq
  rw [hvariant] at hstub hcover
  exact ⟨s, stub, hfind, heq, hstub, hcover⟩

end Generation

theorem Signature.eq_of_name_ne {g g' : Signature} (hg : g ∈ catalog) (hg' : g' ∈ catalog)
    (hne : g.name ≠ g'.name) :
    g = gameWarning ∧ g' = cryWarning ∨ g = cryWarning ∧ g' = gameWarning := by
  unfold catalog at hg hg'
  rcases List.mem_cons.mp hg with hgame | hcry
  · rcases List.mem_cons.mp hg' with hgame' | hcry'
    · rw [hgame, hgame'] at hne
      exact absurd rfl hne
    · exact .inl ⟨hgame, List.mem_singleton.mp hcry'⟩
  · rcases List.mem_cons.mp hg' with hgame' | hcry'
    · exact .inr ⟨List.mem_singleton.mp hcry, hgame'⟩
    · rw [List.mem_singleton.mp hcry, List.mem_singleton.mp hcry'] at hne
      exact absurd rfl hne

theorem Signature.candidate_of_find {g : Signature} (hg : g ∈ catalog) {v : Variant}
    {s : Subroutine} (hs : g.find v = .ok s) : g.Candidate v s := by
  rcases accepts_of_find hg hs with ⟨p, hp, hnames, _, haccepts⟩
  exact (candidate_iff hp hnames s).mpr haccepts

/-!
# Regions
-/

namespace Variant

/-- The first instructions of different subroutines have no byte in common. -/
theorem Overwritable.disjoint {v : Variant} {s t : Subroutine}
    {rva size count rva' size' count' : Nat} (hs : v.Overwritable s rva size count)
    (ht : v.Overwritable t rva' size' count')
    (hsstop : s.start < s.stop) (htstop : t.start < t.stop)
    (h : Disjoint (Set.Ico s.start s.stop) (Set.Ico t.start t.stop)) :
    Disjoint (Set.Ico rva (rva + size)) (Set.Ico rva' (rva' + size')) := by
  rw [Set.Ico_disjoint_Ico] at h
  have hsend := v.boundary_mono hs.inside.1
  have htend := v.boundary_mono ht.inside.1
  rw [← hs.ends] at hsend
  rw [← ht.ends] at htend
  rw [Set.Ico_disjoint_Ico]
  have hapart : s.stop ≤ t.start ∨ t.stop ≤ s.start := by lia
  rcases hapart with hbefore | hbehind
  · have hle := hsend.trans (v.boundary_mono hbefore)
    rw [← ht.starts] at hle
    lia
  · have hle := htend.trans (v.boundary_mono hbehind)
    rw [← hs.starts] at hle
    lia

theorem IsSegment.overwritable_of_cover {v : Variant} {i : Nat}
    {s : Subroutine} (hs : v.IsSegment i s) (hi : i < v.size) (hpadding : v.isPadding i = false)
    {name : String} {b : Bitness} {size : Nat}
    (hcover : (Match.ofSubroutine name v s).cover (HookStub.required b) = some size) :
    ∃ count, v.Overwritable s (v.rvaOf s).toNat size count := by
  rcases Match.cover_eq_some (HookStub.required_pos b) hcover with ⟨count, _, hlength, hsize, _⟩
  refine ⟨count, ?_⟩
  rw [hsize]
  exact hs.overwritable hi hpadding (hlength.trans (v.length_lengths_le s))

/-- The bytes of a variant that two patches overwrite are different, or the same at the start
of a subroutine that both signatures look for. -/
def Apart (v : Variant) (p q : Patch) : Prop :=
  ∀ t ∈ p.targets, t.variant = v.id → ∀ u ∈ q.targets, u.variant = v.id →
    ∃ stub other, p.hook? v.id.bitness = some stub ∧ q.hook? v.id.bitness = some other ∧
      (Disjoint (Set.Ico t.rva.toNat (t.rva.toNat + stub.size))
        (Set.Ico u.rva.toNat (u.rva.toNat + other.size)) ∨
        ∃ s, Signature.Shared v s ∧ t.rva = v.rvaOf s ∧ u.rva = v.rvaOf s ∧
          stub.size = other.size)

end Variant

theorem Generation.generate_apart {κ : Type} {load : κ → Except Error Variant}
    {subsystem : Subsystem} {keys : List κ} {patches : List Patch}
    (h : (generate load subsystem keys).result = .ok patches) {k : κ} (hk : k ∈ keys)
    {v : Variant} (hload : load k = .ok v) : patches.Pairwise v.Apart := by
  have hnames := generate_names_nodup h
  rw [List.Nodup, List.pairwise_map] at hnames
  apply hnames.imp_of_mem
  intro p q hp hq hne t ht htvariant u hu huvariant
  rcases generate_found h hp with ⟨g, hg, hgname, hgfound⟩
  rcases generate_found h hq with ⟨g', hg', hgname', hgfound'⟩
  rcases hgfound k hk v hload t ht htvariant with ⟨s, stub, hfind, heq, hstub, hcover⟩
  rcases hgfound' k hk v hload u hu huvariant with
    ⟨s', other, hfind', heq', hother, hcover'⟩
  refine ⟨stub, other, hstub, hother, ?_⟩
  rw [heq] at hcover ⊢
  rw [heq'] at hcover' ⊢
  by_cases hsame : s = s'
  · rw [← hsame] at hfind' hcover' ⊢
    refine .inr ⟨s, ?_, rfl, rfl, ?_⟩
    · have hs := Signature.candidate_of_find hg hfind
      have hs' := Signature.candidate_of_find hg' hfind'
      rw [hgname, hgname'] at hne
      rcases Signature.eq_of_name_ne hg hg' hne with ⟨hfirst, hsecond⟩ | ⟨hfirst, hsecond⟩
      · rw [hfirst] at hs
        rw [hsecond] at hs'
        exact ⟨hs, hs'⟩
      · rw [hfirst] at hs
        rw [hsecond] at hs'
        exact ⟨hs', hs⟩
    · exact Option.some.inj (hcover.symm.trans hcover')
  · rcases Signature.isSegment_of_find hg hfind with ⟨i, hi, hpadding, hs⟩
    rcases Signature.isSegment_of_find hg' hfind' with ⟨j, hj, hpadding', hs'⟩
    rcases hs.overwritable_of_cover hi hpadding hcover with ⟨count, hregion⟩
    rcases hs'.overwritable_of_cover hj hpadding' hcover' with ⟨count', hregion'⟩
    exact .inl (hregion.disjoint hregion' (hs.start_le.trans_lt hs.lt_stop)
      (hs'.start_le.trans_lt hs'.lt_stop) (hs.disjoint hs' hi hj hpadding hpadding' hsame))

/-- Two patches of a generation have no byte in common, except that both may overwrite the same
bytes of a subroutine that both signatures look for. Such subroutines exist in 32-bit code
only: those that satisfy the longer pattern from their first instruction on, and load into
`eax` where it has no rule. -/
theorem generate_regions_apart {κ : Type} {load : κ → Except Error Variant}
    {subsystem : Subsystem} {keys : List κ} {patches : List Patch}
    (h : (generate load subsystem keys).result = .ok patches) :
    (∀ k ∈ keys, ∀ v, load k = .ok v → patches.Pairwise v.Apart) ∧
      ∀ v s, Signature.Shared v s ↔
        v.id.bitness = .x86 ∧ s = v.subroutineAt s.start ∧
          CryWarning.pattern32.AcceptsFrom v s.start ∧ v.LoadsAccumulator (s.start + 2) := by
  constructor
  · intro k hk v hkload
    exact Generation.generate_apart h hk hkload
  · intro v s
    exact Signature.shared_iff s

/-- A 32-bit function that saves no registers before it makes room for its frame, and loads
the place of the message into `eax`. -/
def plainWarningCode : Section where
  image := ⟨0x10000000, 0x100000⟩
  address := 0x10001000
  bytes := [0x33, 0xC0, 0xC3, 0xCC, 0xCC, 0xCC, 0xCC, 0xB8, 0, 0x10, 0, 0,
    0xE8, 0xEF, 0xFF, 0xFF, 0xFF, 0x8B, 0x43, 0x08, 0x85, 0xC0, 0x74, 0x33, 0x83, 0x38, 0,
    0x74, 0x2E] ++ (List.replicate 23 [0x8B, 0xCA]).flatten ++
    [0x5E, 0xC3, 0xCC, 0xCC, 0xCC, 0xCC]

def plainWarningBuild (build : Nat) : Except Error Variant :=
  Variant.decode .generalPurpose ⟨.game, build, .x86⟩ plainWarningCode

/-- What a patch overwrites in 32-bit variants. -/
def Patch.regions (p : Patch) : List (VariantId × UInt64) × Option Nat :=
  (p.targets.map fun t => (t.variant, t.rva), (p.hook? .x86).map HookStub.size)

theorem decode_plainWarning :
    ∃ v, plainWarningBuild 6156 = .ok v ∧ v.id = ⟨.game, 6156, .x86⟩ := by
  have hid : (plainWarningBuild 6156).map Variant.id = .ok ⟨.game, 6156, .x86⟩ := by
    decide +kernel
  cases h : plainWarningBuild 6156 with
  | error e =>
      rw [h] at hid
      cases hid
  | ok v =>
      rw [h] at hid
      exact ⟨v, rfl, Except.ok.inj hid⟩

theorem shared_plainWarning {v : Variant} (h : plainWarningBuild 6156 = .ok v)
    (hid : v.id = ⟨.game, 6156, .x86⟩) : Signature.Shared v ⟨6, 38⟩ := by
  have hgame : (plainWarningBuild 6156 >>= fun v => GameWarning.pattern32.candidates v) =
      .ok [⟨6, 38⟩] := by
    decide +kernel
  have hcry : (plainWarningBuild 6156 >>= fun v => CryWarning.pattern32.candidates v) =
      .ok [⟨6, 38⟩] := by
    decide +kernel
  rw [h] at hgame hcry
  constructor
  · exact ⟨GameWarning.pattern32, _, by rw [hid]; rfl, hgame, List.mem_singleton_self _⟩
  · exact ⟨CryWarning.pattern32, _, by rw [hid]; rfl, hcry, List.mem_singleton_self _⟩

theorem Patch.of_regions {p : Patch} {id : VariantId} {rva : UInt64} {size : Nat}
    (h : p.regions = ([(id, rva)], some size)) :
    ∃ t ∈ p.targets, t.variant = id ∧ t.rva = rva ∧
      ∃ stub, p.hook? .x86 = some stub ∧ stub.size = size := by
  rcases Prod.mk.inj h with ⟨htargets, hsize⟩
  rcases List.map_eq_singleton_iff.mp htargets with ⟨t, ht, hpair⟩
  rcases Prod.mk.inj hpair with ⟨hvariant, hrva⟩
  rcases Option.map_eq_some_iff.mp hsize with ⟨stub, hstub, hlength⟩
  refine ⟨t, ?_, hvariant, hrva, stub, hstub, hlength⟩
  rw [ht]
  exact List.mem_singleton_self t

theorem generate_plainWarning :
    ∃ p q, (generate plainWarningBuild .game [6156]).result = .ok [p, q] ∧
      p.regions = ([(⟨.game, 6156, .x86⟩, 0x1007)], some 10) ∧
        q.regions = ([(⟨.game, 6156, .x86⟩, 0x1007)], some 10) := by
  have hregions : ((generate plainWarningBuild .game [6156]).result.map fun patches =>
      patches.map Patch.regions) =
        .ok (List.replicate 2 ([(⟨.game, 6156, .x86⟩, 0x1007)], some 10)) := by
    decide +kernel
  cases h : (generate plainWarningBuild .game [6156]).result with
  | error e =>
      rw [h] at hregions
      cases hregions
  | ok patches =>
      rw [h] at hregions
      rcases List.map_eq_cons_iff.mp (Except.ok.inj hregions) with
        ⟨p, rest, hpatches, hp, hrest⟩
      rcases List.map_eq_singleton_iff.mp hrest with ⟨q, hq, hqregions⟩
      exact ⟨p, q, by rw [hpatches, hq], hp, hqregions⟩

/-- Both patches overwrite the ten bytes at 1007h, because one subroutine is a candidate of
both signatures. -/
theorem generate_regions_overlap :
    ∃ v, plainWarningBuild 6156 = .ok v ∧ (∃ s, Signature.Shared v s) ∧
      ∃ p q, (generate plainWarningBuild .game [6156]).result = .ok [p, q] ∧
        ∃ t ∈ p.targets, ∃ u ∈ q.targets, t.variant = v.id ∧ u.variant = v.id ∧
          ∃ stub other, p.hook? v.id.bitness = some stub ∧ q.hook? v.id.bitness = some other ∧
            ¬ Disjoint (Set.Ico t.rva.toNat (t.rva.toNat + stub.size))
              (Set.Ico u.rva.toNat (u.rva.toNat + other.size)) := by
  rcases decode_plainWarning with ⟨v, hload, hid⟩
  rcases generate_plainWarning with ⟨p, q, hpatches, hp, hq⟩
  rcases Patch.of_regions hp with ⟨t, ht, htvariant, htrva, stub, hstub, hsize⟩
  rcases Patch.of_regions hq with ⟨u, hu, huvariant, hurva, other, hother, hsize'⟩
  refine ⟨v, hload, ⟨_, shared_plainWarning hload hid⟩, p, q, hpatches, t, ht, u, hu, ?_⟩
  rw [hid, htrva, hurva]
  refine ⟨htvariant, huvariant, stub, other, hstub, hother, ?_⟩
  rw [hsize, hsize', Set.Ico_disjoint_Ico]
  decide

theorem generate_regions_apart_shared :
    ∃ v patches, plainWarningBuild 6156 = .ok v ∧
      (generate plainWarningBuild .game [6156]).result = .ok patches ∧
        patches.Pairwise v.Apart ∧ v.LoadsAccumulator 8 := by
  rcases decode_plainWarning with ⟨v, hload, hid⟩
  rcases generate_plainWarning with ⟨p, q, hpatches, _, _⟩
  rcases generate_regions_apart hpatches with ⟨hapart, hshared⟩
  have hsame := (hshared v ⟨6, 38⟩).mp (shared_plainWarning hload hid)
  exact ⟨v, [p, q], hload, hpatches, hapart 6156 (List.mem_singleton_self _) v hload,
    hsame.2.2.2⟩

end JumpHooks
