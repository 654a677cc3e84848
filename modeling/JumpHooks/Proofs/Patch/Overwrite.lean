import JumpHooks.Proofs.Hook.Cover
import JumpHooks.Proofs.Patch.Finish
import JumpHooks.Proofs.Patch.Generation

/-!
# What a patch overwrites

A hook is written over the first bytes of a subroutine. Nothing but whole instructions of this
subroutine is lost, and no direct call goes into the middle of them.
-/

namespace JumpHooks

/-!
# Stubs and targets
-/

theorem hookOrder_mapM_ok {f : Bitness → Except Error HookStub} {hooks : List HookStub}
    (h : Bitness.hookOrder.mapM f = .ok hooks)
    (hf : ∀ b s, f b = .ok s → s.bitness = b) (b : Bitness) :
    ∃ s, f b = .ok s ∧ (hooks.find? fun s => s.bitness == b) = some s := by
  have hsteps := Outcome.mapM_eq_ok.mp h
  unfold Bitness.hookOrder at hsteps
  rcases List.forall₂_cons_left_iff.mp hsteps with ⟨s64, _, h64, hrest, rfl⟩
  rcases List.forall₂_cons_left_iff.mp hrest with ⟨s86, _, h86, hnil, rfl⟩
  have hb64 := hf _ _ h64
  have hb86 := hf _ _ h86
  cases b with
  | x64 => exact ⟨s64, h64, List.find?_cons_of_pos (by simp [hb64])⟩
  | x86 =>
      refine ⟨s86, h86, ?_⟩
      rw [List.find?_cons_of_neg (by simp [hb64])]
      exact List.find?_cons_of_pos (by simp [hb86])

/-- A finished patch has a stub for each of its targets, as long as what the target gives up. -/
theorem Draft.finish_hook? {d : Draft} {p : Patch} (h : d.finish = .ok p) {m : Match}
    (hm : m ∈ p.targets) :
    ∃ s, p.hook? m.variant.bitness = some s ∧
      m.cover (HookStub.required m.variant.bitness) = some s.size := by
  rw [targets_finish h] at hm
  rcases finish_ok h with ⟨hooks, _, hhooks, _, hp⟩
  have hsome : d.targets.isEmpty = false := by
    rw [List.isEmpty_eq_false_iff]
    exact List.ne_nil_of_mem hm
  unfold Draft.hooks at hhooks
  rw [hsome] at hhooks
  have hbitness : ∀ b s, HookStub.forTargets d.signature.name b d.targets = .ok s →
      s.bitness = b := by
    intro b s hs
    exact (HookStub.forTargets_ok hs).1
  rcases hookOrder_mapM_ok hhooks hbitness m.variant.bitness with ⟨s, hs, hfind⟩
  refine ⟨s, ?_, (HookStub.forTargets_ok hs).2 m hm rfl⟩
  rw [hp]
  exact hfind

/-- Every target of a generation is what a signature of the subsystem finds in a variant that
was loaded. -/
theorem Generation.exists_found {κ : Type} {load : κ → Except Error Variant}
    {subsystem : Subsystem} {keys : List κ} {patches : List Patch}
    (h : (generate load subsystem keys).result = .ok patches) {p : Patch} (hp : p ∈ patches)
    {m : Match} (hm : m ∈ p.targets) :
    ∃ g ∈ Signature.inSubsystem subsystem, ∃ k ∈ keys, ∃ v s,
      load k = .ok v ∧ g.find v = .ok s ∧ m = Match.ofSubroutine g.name v s ∧
        ∃ stub, p.hook? m.variant.bitness = some stub ∧
          m.cover (HookStub.required m.variant.bitness) = some stub.size := by
  rcases generate_ok h hp with ⟨g, hg, vs, hvs, hrecords, hfinish⟩
  have hhook := Draft.finish_hook? hfinish hm
  rw [Draft.targets_finish hfinish, hrecords.targets, Draft.signature_new_after] at hm
  rcases List.mem_filterMap.mp hm with ⟨v, hv, htarget⟩
  rcases Signature.target?_eq_some htarget with ⟨_, s, hfind, heq⟩
  rcases Outcome.exists_of_mem hvs hv with ⟨k, hk, hload⟩
  exact ⟨g, hg, k, hk, v, s, hload, hfind, heq, hhook⟩

/-!
# Subroutines of the catalog
-/

namespace Signature

theorem find_of_mem_catalog {g : Signature} (hg : g ∈ catalog) (v : Variant) :
    g.find v = g.pattern v.id.bitness >>= fun p => p.findUnique g.name v := by
  unfold catalog at hg
  rcases List.mem_cons.mp hg with heq | hrest
  · rw [heq]
    rfl
  · rw [List.mem_singleton.mp hrest]
    rfl

/-- The patterns of the catalog have anchors that are no padding, and rules that always have
an answer. -/
theorem pattern_of_mem_catalog {g : Signature} (hg : g ∈ catalog) (b : Bitness) :
    ∃ p, g.pattern b = .ok p ∧ p.NamesInstructions ∧ p.anchor.form.isPadding = false := by
  unfold catalog at hg
  rcases List.mem_cons.mp hg with heq | hrest
  · rw [heq]
    cases b with
    | x86 => exact ⟨GameWarning.pattern32, rfl, by decide, by decide⟩
    | x64 => exact ⟨GameWarning.pattern64, rfl, by decide, by decide⟩
  · rw [List.mem_singleton.mp hrest]
    cases b with
    | x86 => exact ⟨CryWarning.pattern32, rfl, by decide, by decide⟩
    | x64 => exact ⟨CryWarning.pattern64, rfl, by decide, by decide⟩

/-- What the catalog finds satisfies the pattern of the instruction set. -/
theorem accepts_of_find {g : Signature} (hg : g ∈ catalog) {v : Variant}
    {s : Subroutine} (hs : g.find v = .ok s) :
    ∃ p, g.pattern v.id.bitness = .ok p ∧ p.NamesInstructions ∧
      p.anchor.form.isPadding = false ∧ p.Accepts v s := by
  rcases pattern_of_mem_catalog hg v.id.bitness with ⟨p, hp, hnames, hanchor⟩
  rw [find_of_mem_catalog hg, hp] at hs
  rcases Pattern.candidates_isSearchResult hnames v with ⟨found, hfound, hresult⟩
  exact ⟨p, hp, hnames, hanchor,
    ((Pattern.findUnique_eq_ok_iff hfound hresult g.name s).mp hs).1⟩

/-- What the catalog finds is the segment around an instruction that is no padding. -/
theorem isSegment_of_find {g : Signature} (hg : g ∈ catalog) {v : Variant}
    {s : Subroutine} (hs : g.find v = .ok s) :
    ∃ i, i < v.size ∧ v.isPadding i = false ∧ v.IsSegment i s := by
  rcases accepts_of_find hg hs with ⟨p, _, _, hanchor, haccepts⟩
  rcases haccepts.isSegment with ⟨i, hi, hpadding, hsegment⟩
  exact ⟨i, hi, hpadding.trans hanchor, hsegment⟩

end Signature

/-!
# Overwritten code
-/

namespace Variant

/-- The first `count` instructions of a subroutine are the `size` bytes from `rva` on. No
padding is among them, and a direct call goes to none of them but the first. -/
structure Overwritable (v : Variant) (s : Subroutine) (rva size count : Nat) : Prop where
  starts : rva = v.boundary s.start
  ends : rva + size = v.boundary (s.start + count)
  inside : s.start + count ≤ s.stop ∧ s.stop ≤ v.size
  in_image : rva + size ≤ v.image.size.toNat
  not_padding : ∀ k, rva ≤ v.boundary k → v.boundary k < rva + size → v.isPadding k = false
  not_entered : ∀ k, rva < v.boundary k → v.boundary k < rva + size → ¬ v.Entered k

theorem IsSegment.overwritable {v : Variant} {i : Nat} {s : Subroutine}
    (hs : v.IsSegment i s) (hi : i < v.size) (hpadding : v.isPadding i = false) {count : Nat}
    (hcount : count ≤ s.size) :
    v.Overwritable s (v.rvaOf s).toNat ((v.lengths s).take count).sum count := by
  have hstop := hs.stop_le_size hi
  have hlast : s.start + count ≤ s.stop := by
    have hlt := hs.start_le.trans_lt hs.lt_stop
    unfold Subroutine.size at hcount
    lia
  have hstart : (v.rvaOf s).toNat = v.boundary s.start :=
    v.rvaOf_toNat (hs.start_le.trans_lt hi)
  have hend : (v.rvaOf s).toNat + ((v.lengths s).take count).sum =
      v.boundary (s.start + count) := by
    rw [hstart, v.boundary_add_lengths hcount]
  refine ⟨hstart, hend, ⟨hlast, hstop⟩, ?_, ?_, ?_⟩
  · rw [hend]
    exact (v.boundary_mono (hlast.trans hstop)).trans v.boundary_size_le
  · intro k hle hlt
    rw [hend] at hlt
    rw [hstart] at hle
    have hfirst : s.start ≤ k := by
      by_contra hbefore
      have hless := v.boundary_lt (Nat.not_le.mp hbefore) (hs.start_le.trans hi.le)
      exact absurd hle (Nat.not_le.mpr hless)
    exact hs.isPadding_eq_false hpadding hfirst ((lt_of_boundary_lt hlt).trans_le hlast)
  · intro k hgt hlt hentered
    rw [hend] at hlt
    rw [hstart] at hgt
    have hk := hs.eq_start_of_entered (lt_of_boundary_lt hgt).le
      ((lt_of_boundary_lt hlt).trans_le hlast) hentered
    rw [hk] at hgt
    exact lt_irrefl _ hgt

end Variant

/-- Every target of a successful generation gives up exactly as many of its first
instructions as the jump needs, and they can be overwritten. -/
theorem generate_overwrites_safely {κ : Type} {load : κ → Except Error Variant}
    {subsystem : Subsystem} {keys : List κ} {patches : List Patch}
    (h : (generate load subsystem keys).result = .ok patches) {p : Patch} (hp : p ∈ patches)
    {t : Match} (ht : t ∈ p.targets) :
    ∃ g ∈ Signature.inSubsystem subsystem, ∃ k ∈ keys, ∃ v s,
      load k = .ok v ∧ g.find v = .ok s ∧ t = Match.ofSubroutine g.name v s ∧
        ∃ stub count, p.hook? t.variant.bitness = some stub ∧
          1 ≤ count ∧ count ≤ s.size ∧ stub.size = ((v.lengths s).take count).sum ∧
            IsLeast {n | (if t.variant.bitness = .x64 then 12 else 7) ≤
              ((v.lengths s).take n).sum} count ∧
              v.Overwritable s t.rva.toNat stub.size count := by
  rcases Generation.exists_found h hp ht with
    ⟨g, hg, k, hk, v, s, hkload, hfind, heq, stub, hstub, hcover⟩
  have hcatalog : g ∈ Signature.catalog := List.mem_of_mem_filter hg
  rcases Signature.isSegment_of_find hcatalog hfind with ⟨i, hi, hpadding, hs⟩
  rcases Match.cover_eq_some (HookStub.required_pos _) hcover with
    ⟨count, hpos, hlength, hsize, hleast⟩
  have hlengths : t.lengths = v.lengths s := by
    rw [heq]
    rfl
  have hrva : t.rva = v.rvaOf s := by
    rw [heq]
    rfl
  rw [HookStub.required_eq] at hleast
  rw [hlengths] at hlength hsize hleast
  have hcount : count ≤ s.size := hlength.trans (v.length_lengths_le s)
  refine ⟨g, hg, k, hk, v, s, hkload, hfind, heq, stub, count, hstub, hpos, hcount, hsize,
    hleast, ?_⟩
  rw [hsize, hrva]
  exact hs.overwritable hi hpadding hcount

/-- A function that begins as the catalog wants it: two spills and two pushes, which are just
long enough for the jump, the size of its frame, and the call that makes room for it. -/
def warningCode : Section where
  image := ⟨0x180000000, 0x100000⟩
  address := 0x180001000
  bytes := [0x4C, 0x89, 0x44, 0x24, 0x18, 0x4C, 0x89, 0x4C, 0x24, 0x20, 0x53, 0x57,
    0xB8, 0x38, 0x10, 0, 0, 0xE8, 0, 0x10, 0, 0, 0x48, 0x2B, 0xE0] ++
    List.replicate 24 0x90 ++ [0xC3]

def warningBuild (build : Nat) : Except Error Variant :=
  Variant.decode .generalPurpose ⟨.system, build, .x64⟩ warningCode

theorem generate_overwrites_safely_two_builds :
    ∃ patches, (generate warningBuild .system [6156, 5767]).result = .ok patches ∧
      ∃ p ∈ patches, ∃ t ∈ p.targets, t.rva = 0x1000 ∧
        ∃ stub count, p.hook? t.variant.bitness = some stub ∧
          ∃ (v : Variant) (s : Subroutine), v.Overwritable s 0x1000 stub.size count := by
  have hrvas : ((generate warningBuild .system [6156, 5767]).result.map fun patches =>
      (patches.flatMap Patch.targets).map Match.rva) = .ok [0x1000, 0x1000] := by
    decide +kernel
  cases h : (generate warningBuild .system [6156, 5767]).result with
  | error e =>
      rw [h] at hrvas
      cases hrvas
  | ok patches =>
      rw [h] at hrvas
      have hall : (patches.flatMap Patch.targets).map Match.rva = _ := Except.ok.inj hrvas
      have hrva : 0x1000 ∈ (patches.flatMap Patch.targets).map Match.rva := by
        rw [hall]
        exact List.mem_cons_self
      rcases List.mem_map.mp hrva with ⟨t, ht, htrva⟩
      rcases List.mem_flatMap.mp ht with ⟨p, hp, ht⟩
      rcases generate_overwrites_safely h hp ht with
        ⟨_, _, _, _, v, s, _, _, _, stub, count, hstub, _, _, _, _, hsafe⟩
      rw [htrva] at hsafe
      exact ⟨patches, rfl, p, hp, t, ht, htrva, stub, count, hstub, v, s, hsafe⟩

end JumpHooks
