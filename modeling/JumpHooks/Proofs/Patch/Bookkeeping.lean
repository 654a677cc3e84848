import JumpHooks.Proofs.Patch.Branches
import JumpHooks.Proofs.Patch.Finish
import JumpHooks.Proofs.Patch.Verdict

/-!
# Bookkeeping

A draft keeps its marks, its targets and the cases of its exemptions in step. Whatever variants
are offered to it, a build of an instruction set has at most one of a target and an exemption, it
has a mark if it has either, and a mark bars it from then on, even if the signature was not found
when it was set.
-/

namespace JumpHooks

/-!
# Subroutines that are found
-/

namespace Variant

theorem startOf_le (v : Variant) (index : Nat) : v.startOf index ≤ index := by
  induction index with
  | zero => exact Nat.le_refl 0
  | succ index ih =>
      unfold startOf
      split
      · exact Nat.le_refl _
      · exact Nat.le_succ_of_le ih

theorem le_stopFrom (v : Variant) (remaining k : Nat) : k ≤ v.stopFrom remaining k := by
  induction remaining generalizing k with
  | zero => exact Nat.le_refl k
  | succ remaining ih =>
      unfold stopFrom
      split
      · exact Nat.le_refl k
      · exact Nat.le_of_succ_le (ih (k + 1))

/-- The subroutine around an instruction has this instruction at least. -/
theorem lengths_ne_nil {v : Variant} {index : Nat} {s : Subroutine}
    (h : v.subroutine index = .ok s) : v.lengths s ≠ [] := by
  unfold subroutine at h
  split at h
  · rename_i hsize
    cases h
    have hstart := v.startOf_le index
    have hstop := v.le_stopFrom (v.size - (index + 1)) (index + 1)
    have hlength : 0 < (v.lengths (v.subroutineAt index)).length := by
      unfold lengths body slice
      rw [List.length_map, Array.length_toList, Array.size_extract]
      show 0 < min (v.stopFrom (v.size - (index + 1)) (index + 1)) v.size - v.startOf index
      lia
    exact List.length_pos_iff.mp hlength
  · cases h

end Variant

theorem Pattern.exists_subroutine {p : Pattern} {signature : String} {v : Variant}
    {s : Subroutine} (h : p.findUnique signature v = .ok s) :
    ∃ index, v.subroutine index = .ok s := by
  unfold findUnique at h
  rcases Outcome.bind_eq_ok.mp h with ⟨found, hfound, honly⟩
  have hs : s ∈ found := by
    split at honly
    · cases honly
    · rename_i t
      cases honly
      exact List.mem_singleton_self s
    · cases honly
  unfold candidates at hfound
  rcases Outcome.bind_eq_ok.mp hfound with ⟨kept, hkept, heq⟩
  cases heq
  have hsome := List.mem_filterMap.mp (withoutRepeats_subset hs)
  rcases hsome with ⟨_, hmem, rfl⟩
  rcases Outcome.exists_of_mem (Outcome.mapM_eq_ok.mp hkept) hmem with
    ⟨⟨t, reason⟩, hcheck, haccepted⟩
  have ht : t = s := by
    unfold accepted at haccepted
    split at haccepted
    · cases haccepted
    · rename_i heq
      cases heq
      exact Option.some.inj (Except.ok.inj haccepted)
    · cases haccepted
  rcases List.mem_map.mp hcheck with ⟨index, hindex, hpair⟩
  rcases mem_anchors.mp hindex with ⟨q, hq, _⟩
  refine ⟨index, ?_⟩
  rw [← ht, ← (Prod.mk.inj hpair).1]
  exact Variant.subroutine_eq_ok (Variant.lt_size_of_instruction hq)

/-- What the signature finds is the subroutine around an instruction of the variant; no other
subroutines can be made. -/
def Signature.FindsSubroutines (g : Signature) : Prop :=
  ∀ v s, g.find v = .ok s → ∃ index, v.subroutine index = .ok s

theorem Signature.findsSubroutines_of_pattern {g : Signature}
    (h : ∀ v, g.find v = g.pattern v.id.bitness >>= fun p => p.findUnique g.name v) :
    g.FindsSubroutines := by
  intro v s hs
  rw [h] at hs
  rcases Outcome.bind_eq_ok.mp hs with ⟨p, _, hfind⟩
  exact Pattern.exists_subroutine hfind

/-!
# New cases
-/

theorem Case.addTo_perm {build : Nat} {cases : List Case} (h : ∀ c ∈ cases, c.build ≠ build)
    (statement : String) : (addTo build statement cases).Perm (⟨build, [statement]⟩ :: cases) := by
  induction cases with
  | nil => exact List.Perm.refl _
  | cons c cases ih =>
      unfold addTo
      have hc := h c List.mem_cons_self
      split
      · exact List.Perm.refl _
      · rw [if_neg hc.symm]
        have hrest := ih fun d hd => h d (List.mem_cons_of_mem c hd)
        exact (hrest.cons c).trans (List.Perm.swap _ _ _)

theorem BuildCases.push_perm {x : BuildCases} {build : Nat} (h : x.statements? build = none)
    (statement : String) :
    (x.push build statement).cases.Perm (⟨build, [statement]⟩ :: x.cases) := by
  apply Case.addTo_perm
  intro c hc hbuild
  rw [← hbuild, mem_cases_iff.mp hc] at h
  cases h

namespace Draft

/-!
# Consistent drafts
-/

/-- The builds and the instruction sets of the exemptions, the 64-bit ones first. -/
def exemptKeys (d : Draft) : List (Nat × Bitness) :=
  Bitness.hookOrder.flatMap fun b => (d.cases b).cases.map fun c => (c.build, b)

/-- The targets are found in variants that were offered, and the exemptions are those of such
variants, with one statement each. No two of them have the same build and instruction set. -/
structure Consistent (d : Draft) (offered : List Variant) : Prop where
  target : ∀ t ∈ d.targets, t.signature = d.signature.name ∧
    t.variant.subsystem = d.subsystem ∧
      ∃ v ∈ offered, v.id = t.variant ∧ d.signature.exemption v.id = none ∧
        ∃ s, d.signature.find v = .ok s ∧ t = Match.ofSubroutine d.signature.name v s
  nonempty : d.signature.FindsSubroutines → ∀ t ∈ d.targets, t.lengths ≠ []
  bitness : ∀ b, (d.cases b).bitness = b
  exempt : ∀ b, ∀ c ∈ (d.cases b).cases, ∃ v ∈ offered, v.id = ⟨d.subsystem, c.build, b⟩ ∧
    ∃ statement, d.signature.exemption v.id = some statement ∧ c.statements = [statement]
  keys : (d.targets.map Match.key ++ d.exemptKeys).Nodup
  processed : ∀ key ∈ d.targets.map Match.key ++ d.exemptKeys, key ∈ d.processed

theorem mem_exemptKeys {d : Draft} {key : Nat × Bitness} :
    key ∈ d.exemptKeys ↔ ∃ c ∈ (d.cases key.2).cases, c.build = key.1 := by
  rcases key with ⟨n, b⟩
  cases b <;> simp [exemptKeys, Bitness.hookOrder]

theorem nodup_exemptKeys (d : Draft) : d.exemptKeys.Nodup := by
  have hkeys : ∀ b, ((d.cases b).cases.map fun c => (c.build, b)).Nodup := by
    intro b
    have hpair : Function.Injective fun n : Nat => (n, b) := by
      intro m n heq
      exact (Prod.mk.inj heq).1
    have hkeys := (d.cases b).builds_nodup.map hpair
    rw [List.map_map] at hkeys
    exact hkeys
  show (_ ++ (_ ++ [])).Nodup
  rw [List.append_nil, List.nodup_append]
  refine ⟨hkeys .x64, hkeys .x86, ?_⟩
  intro key hkey key' hkey' heq
  rcases List.mem_map.mp hkey with ⟨c, _, hc⟩
  rcases List.mem_map.mp hkey' with ⟨c', _, hc'⟩
  rw [← hc, ← hc'] at heq
  cases (Prod.mk.inj heq).2

theorem bitness_process (d : Draft) (v : Variant) (b : Bitness) :
    ((d.process v).state.cases b).bitness = (d.cases b).bitness := by
  cases hresult : (d.process v).result with
  | ok u =>
      rcases process_ok hresult with ⟨_, _, ⟨_, _, hstate⟩ | ⟨_, _, hstate⟩⟩
      · rw [hstate, cases_push]
        split
        · rw [cases_offer]
          rfl
        · rw [cases_offer]
      · rw [hstate]
        cases b <;> rfl
  | error e =>
      rcases process_error hresult with hstate | hstate
      · rw [hstate]
      · rw [hstate, cases_offer]

theorem bitness_after (subsystem : Subsystem) (g : Signature) (offered : List Variant)
    (b : Bitness) : (((new subsystem g).after offered).cases b).bitness = b := by
  induction offered using List.reverseRecOn with
  | nil => cases b <;> rfl
  | append_singleton offered v ih =>
      rw [after_append]
      exact (bitness_process _ v b).trans ih

namespace Records

variable {d : Draft} {vs : List Variant}

theorem exists_of_target (h : d.Records vs) {t : Match} (ht : t ∈ d.targets) :
    ∃ v ∈ vs, v.id = t.variant ∧ d.signature.exemption v.id = none ∧
      ∃ s, d.signature.find v = .ok s ∧ t = Match.ofSubroutine d.signature.name v s := by
  rw [h.targets] at ht
  rcases List.mem_filterMap.mp ht with ⟨v, hv, htarget⟩
  rcases Signature.target?_eq_some htarget with ⟨hexempt, s, hfind, rfl⟩
  exact ⟨v, hv, rfl, hexempt, s, hfind, rfl⟩

theorem exists_of_case (h : d.Records vs) {b : Bitness} {c : Case}
    (hc : c ∈ (d.cases b).cases) :
    ∃ v ∈ vs, v.id = ⟨d.subsystem, c.build, b⟩ ∧
      ∃ statement, d.signature.exemption v.id = some statement ∧ c.statements = [statement] := by
  rcases (h.exempt _ _ _).mp (BuildCases.mem_cases_iff.mp hc) with ⟨v, hv, hkey, hstatement⟩
  refine ⟨v, hv, ?_, hstatement⟩
  have hsubsystem := h.subsystem v hv
  cases hid : v.id
  unfold Variant.key at hkey
  rw [hid] at hkey hsubsystem
  cases hkey
  cases hsubsystem
  rfl

theorem keys_nodup (h : d.Records vs) : (d.targets.map Match.key ++ d.exemptKeys).Nodup := by
  rw [List.nodup_append]
  refine ⟨?_, d.nodup_exemptKeys, ?_⟩
  · rw [h.targets]
    exact h.keys.sublist (d.signature.keys_filterMap_target? vs)
  · intro key hkey key' hkey' heq
    rw [← heq] at hkey'
    rcases List.mem_map.mp hkey with ⟨t, ht, rfl⟩
    rcases h.exists_of_target ht with ⟨v, hv, hid, hnone, _⟩
    rcases mem_exemptKeys.mp hkey' with ⟨c, hc, hbuild⟩
    rcases h.exists_of_case hc with ⟨w, hw, hwid, statement, hsome, _⟩
    -- Of one key, the draft took in one variant, which is exempt or is not.
    have hsame : v = w := by
      apply List.inj_on_of_nodup_map h.keys hv hw
      unfold Variant.key
      rw [hid, hwid, hbuild]
      rfl
    rw [hsame, hsome] at hnone
    cases hnone

theorem mem_processed (h : d.Records vs) {key : Nat × Bitness}
    (hkey : key ∈ d.targets.map Match.key ++ d.exemptKeys) : key ∈ d.processed := by
  rcases List.mem_append.mp hkey with htarget | hexempt
  · rcases List.mem_map.mp htarget with ⟨t, ht, rfl⟩
    rcases h.exists_of_target ht with ⟨v, hv, hid, _⟩
    have hprocessed := h.processed v hv
    unfold Variant.key at hprocessed
    rw [hid] at hprocessed
    exact hprocessed
  · rcases mem_exemptKeys.mp hexempt with ⟨c, hc, hbuild⟩
    rcases h.exists_of_case hc with ⟨v, hv, hid, _⟩
    have hprocessed := h.processed v hv
    unfold Variant.key at hprocessed
    rw [hid, hbuild] at hprocessed
    exact hprocessed

end Records

theorem after_consistent (subsystem : Subsystem) (g : Signature) (offered : List Variant) :
    ((new subsystem g).after offered).Consistent offered := by
  have hrecords := new_after_records subsystem g offered
  have hoffered := (new subsystem g).accepted_subset offered
  constructor
  · intro t ht
    rcases hrecords.exists_of_target ht with ⟨v, hv, hid, hexempt, s, hfind, heq⟩
    refine ⟨?_, ?_, v, hoffered v hv, hid, hexempt, s, hfind, heq⟩
    · rw [heq]
      rfl
    · rw [← hid]
      exact hrecords.subsystem v hv
  · intro hfinds t ht
    rcases hrecords.exists_of_target ht with ⟨v, _, _, _, s, hfind, heq⟩
    rcases hfinds v s hfind with ⟨index, hindex⟩
    rw [heq]
    exact Variant.lengths_ne_nil hindex
  · exact bitness_after subsystem g offered
  · intro b c hc
    rcases hrecords.exists_of_case hc with ⟨v, hv, hcase⟩
    exact ⟨v, hoffered v hv, hcase⟩
  · exact hrecords.keys_nodup
  · intro key hkey
    exact hrecords.mem_processed hkey

/-!
# What a step adds
-/

/-- The draft has one more target, which is found in the variant, and no other change but the
mark. -/
def GainsTarget (d : Draft) (v : Variant) (state : Draft) : Prop :=
  d.signature.exemption v.id = none ∧ ∃ s, d.signature.find v = .ok s ∧
    state = { d.offer v with
      targets := d.targets ++ [Match.ofSubroutine d.signature.name v s] }

/-- The draft has one more case, with one statement, and no other change but the mark. -/
structure GainsCase (d : Draft) (v : Variant) (statement : String) (state : Draft) : Prop where
  subsystem : state.subsystem = d.subsystem
  signature : state.signature = d.signature
  processed : state.processed = v.key :: d.processed
  targets : state.targets = d.targets
  own : (state.cases v.id.bitness).cases.Perm
    (⟨v.id.build, [statement]⟩ :: (d.cases v.id.bitness).cases)
  others : ∀ b, b ≠ v.id.bitness → state.cases b = d.cases b

/-- A step that fails leaves the targets and the cases as they were. One that succeeds adds one
target or the case of one exemption, and nothing else. -/
structure AddsOne (d : Draft) (v : Variant) : Prop where
  failed : ∀ e, (d.process v).result = .error e →
    (d.process v).state.targets = d.targets ∧ (d.process v).state.cases = d.cases
  succeeded : (d.process v).result = .ok () →
    d.GainsTarget v (d.process v).state ∨
      ∃ statement, d.signature.exemption v.id = some statement ∧
        d.GainsCase v statement (d.process v).state

theorem Records.gainsCase {d : Draft} {vs : List Variant} (h : d.Records vs) {v : Variant}
    (hnew : v.key ∉ d.processed) (statement : String) :
    d.GainsCase v statement ((d.offer v).push v.id.bitness v.id.build statement) := by
  constructor
  · exact subsystem_push _ _ _ _
  · exact signature_push _ _ _ _
  · exact processed_push _ _ _ _
  · exact targets_push _ _ _ _
  · rw [cases_push, if_pos rfl, cases_offer]
    exact BuildCases.push_perm (h.statements?_eq_none hnew) statement
  · intro b hb
    rw [cases_push, if_neg hb.symm, cases_offer]

theorem Records.addsOne {d : Draft} {vs : List Variant} (h : d.Records vs) (v : Variant) :
    d.AddsOne v := by
  constructor
  · intro e herror
    rcases Draft.process_error herror with hstate | hstate
    · rw [hstate]
      exact ⟨rfl, rfl⟩
    · rw [hstate]
      exact ⟨rfl, cases_offer d v⟩
  · intro hok
    rcases Draft.process_ok hok with ⟨_, hnew, ⟨statement, hexempt, hstate⟩ | ⟨m, hm, hstate⟩⟩
    · right
      rw [hstate]
      exact ⟨statement, hexempt, h.gainsCase hnew statement⟩
    · left
      rcases Signature.target?_eq_some hm with ⟨hexempt, s, hfind, heq⟩
      refine ⟨hexempt, s, hfind, ?_⟩
      rw [hstate, heq]

/-- Why a draft turns down a variant whose build and instruction set have a mark. -/
def refusal (d : Draft) (v : Variant) : Precondition :=
  if v.id.subsystem = d.subsystem then
    .processedTwice d.signature.name v.id
  else
    .otherSubsystem d.signature.name v.id d.subsystem

theorem process_of_mem_processed {d : Draft} {v : Variant} (h : v.key ∈ d.processed) :
    d.process v = ⟨d, [], .error (.precondition (d.refusal v))⟩ := by
  have hcontains : d.processed.contains (v.id.build, v.id.bitness) = true :=
    List.contains_iff_mem.mpr h
  unfold process refusal
  by_cases hsubsystem : v.id.subsystem = d.subsystem
  · simp only [hsubsystem, hcontains, ne_eq, not_true_eq_false, if_false, if_true]
  · simp only [hsubsystem, ne_eq, not_false_eq_true, if_true, if_false]

/-- Every run leaves a consistent draft, to which each step adds one thing at most, and a build
of an instruction set is turned down once a variant of the subsystem was offered with it, even if
the signature was not found in that variant. -/
theorem after_bookkeeping (subsystem : Subsystem) (g : Signature) (offered : List Variant) :
    ((new subsystem g).after offered).Consistent offered ∧
      (∀ v, ((new subsystem g).after offered).AddsOne v) ∧
        ∀ u ∈ offered, u.id.subsystem = subsystem → ∀ v, v.key = u.key →
          ((new subsystem g).after offered).process v =
            ⟨(new subsystem g).after offered, [],
              .error (.precondition (((new subsystem g).after offered).refusal v))⟩ := by
  refine ⟨after_consistent subsystem g offered, ?_, ?_⟩
  · intro v
    exact (new_after_records subsystem g offered).addsOne v
  · intro u hu hsubsystem v hkey
    apply process_of_mem_processed
    rw [mem_processed_after, hkey]
    exact .inr ⟨u, hu, hsubsystem, rfl⟩

/-- A variant with this code. -/
def codeBuild (id : VariantId) (bytes : List UInt8) : Except Error Variant :=
  Variant.decode .generalPurpose id { idleCode with bytes := bytes }

/-- A build with the function, one without it, one of another subsystem, and one that is
exempt. -/
def troubledRun : List Variant :=
  [codeBuild ⟨.game, 6156, .x64⟩ [0x90, 0x90, 0xC3], codeBuild ⟨.game, 5767, .x64⟩ [0xC3],
    codeBuild ⟨.network, 5879, .x64⟩ [0x90, 0x90, 0xC3],
    codeBuild ⟨.game, 711, .x64⟩ [0xC3]].filterMap Except.toOption

/-- The code that build 5767 lacked comes too late. -/
theorem after_bookkeeping_troubled :
    idle.FindsSubroutines ∧
      ((new .game idle).after troubledRun).targets.map Match.key = [(6156, .x64)] ∧
        ((new .game idle).after troubledRun).exemptKeys = [(711, .x64)] ∧
          (∀ t ∈ ((new .game idle).after troubledRun).targets, t.lengths ≠ []) ∧
            ∃ v, codeBuild ⟨.game, 5767, .x64⟩ [0x90, 0x90, 0xC3] = .ok v ∧
              idle.find v = .ok ⟨0, 3⟩ ∧
                (((new .game idle).after troubledRun).process v).result =
                  .error (.precondition (.processedTwice "Idle" ⟨.game, 5767, .x64⟩)) := by
  have hfinds : idle.FindsSubroutines := Signature.findsSubroutines_of_pattern fun v => rfl
  have hmissed : ⟨.game, 5767, .x64⟩ ∈ troubledRun.map Variant.id := by decide +kernel
  rcases List.mem_map.mp hmissed with ⟨u, hu, hid⟩
  rcases after_bookkeeping .game idle troubledRun with ⟨hconsistent, _, hrefused⟩
  have hnonempty := hconsistent.nonempty
  rw [signature_new_after] at hnonempty
  refine ⟨hfinds, by decide +kernel, by decide +kernel, hnonempty hfinds, _, rfl,
    by decide +kernel, ?_⟩
  rw [hrefused u hu (by rw [hid]) _ (by unfold Variant.key; rw [hid]; rfl)]
  decide +kernel

end Draft
end JumpHooks
