import JumpHooks.Patch.Draft
import JumpHooks.Proofs.Patch.Statements
import Mathlib.Data.List.Nodup

/-!
# The history of a draft

A draft is determined by the variants that it took in without an error: each left either a
target or the case of an exemption, under a build and an instruction set that no other one of
them has. Steps that fail leave no trace but the mark that the variant was offered.
-/

namespace JumpHooks

/-- The build and the instruction set of a variant. -/
def Variant.key (v : Variant) : Nat × Bitness :=
  (v.id.build, v.id.bitness)

/-- The build and the instruction set of a match. -/
def Match.key (m : Match) : Nat × Bitness :=
  (m.variant.build, m.variant.bitness)

namespace Signature

/-- What the signature finds in a variant, unless the variant is exempt. -/
def target? (g : Signature) (v : Variant) : Option Match :=
  match g.exemption v.id with
  | some _ => none
  | none =>
      match g.find v with
      | .error _ => none
      | .ok s => some (Match.ofSubroutine g.name v s)

theorem target?_of_exempt {g : Signature} {v : Variant} {statement : String}
    (h : g.exemption v.id = some statement) : g.target? v = none := by
  unfold target?
  rw [h]

theorem target?_of_found {g : Signature} {v : Variant} {s : Subroutine}
    (hexempt : g.exemption v.id = none) (hfind : g.find v = .ok s) :
    g.target? v = some (Match.ofSubroutine g.name v s) := by
  unfold target?
  rw [hexempt, hfind]

theorem target?_eq_some {g : Signature} {v : Variant} {m : Match} (h : g.target? v = some m) :
    g.exemption v.id = none ∧
      ∃ s, g.find v = .ok s ∧ m = Match.ofSubroutine g.name v s := by
  unfold target? at h
  split at h
  · cases h
  · rename_i hexempt
    split at h
    · cases h
    · rename_i s hfind
      cases h
      exact ⟨hexempt, s, hfind, rfl⟩

theorem key_of_target? {g : Signature} {v : Variant} {m : Match} (h : g.target? v = some m) :
    m.key = v.key := by
  rcases target?_eq_some h with ⟨_, s, _, heq⟩
  rw [heq]
  rfl

/-- Matches repeat no key that their variants do not repeat. -/
theorem keys_filterMap_target? (g : Signature) (vs : List Variant) :
    ((vs.filterMap g.target?).map Match.key).Sublist (vs.map Variant.key) := by
  induction vs with
  | nil => exact List.Sublist.slnil
  | cons v vs ih =>
      cases htarget : g.target? v with
      | none =>
          rw [List.filterMap_cons_none htarget, List.map_cons]
          exact ih.cons v.key
      | some m =>
          rw [List.filterMap_cons_some htarget, List.map_cons, List.map_cons,
            key_of_target? htarget]
          exact ih.cons_cons v.key

end Signature

namespace Draft

/-!
# Steps
-/

/-- The cases of an instruction set. -/
def cases (d : Draft) : Bitness → BuildCases
  | .x64 => d.x64
  | .x86 => d.x86

theorem cases_push (d : Draft) (bitness other : Bitness) (build : Nat)
    (statement : String) :
    (d.push bitness build statement).cases other =
      if bitness = other then (d.cases other).push build statement else d.cases other := by
  cases bitness <;> cases other <;> rfl

theorem statements?_push (d : Draft) (bitness other : Bitness) (build n : Nat)
    (statement : String) :
    ((d.push bitness build statement).cases other).statements? n =
      if (build, bitness) = (n, other) then
        some (((d.cases other).statements? n).getD [] ++ [statement])
      else (d.cases other).statements? n := by
  rw [cases_push]
  by_cases hbitness : bitness = other
  · rw [if_pos hbitness, BuildCases.statements?_push]
    by_cases hbuild : build = n
    · rw [if_pos hbuild, if_pos (by rw [hbuild, hbitness]), hbuild]
    · rw [if_neg hbuild, if_neg (by simp [hbuild])]
  · rw [if_neg hbitness, if_neg (by simp [hbitness])]

/-- A statement for a build that has none. -/
theorem statements?_push_new {d : Draft} {bitness : Bitness} {build : Nat}
    (hnew : (d.cases bitness).statements? build = none) (statement : String) (n : Nat)
    (other : Bitness) (statements : List String) :
    ((d.push bitness build statement).cases other).statements? n = some statements ↔
      (d.cases other).statements? n = some statements ∨
        (build, bitness) = (n, other) ∧ statements = [statement] := by
  rw [statements?_push]
  by_cases hkey : (build, bitness) = (n, other)
  · cases hkey
    rw [if_pos rfl, hnew]
    simp [eq_comm]
  · rw [if_neg hkey]
    simp [hkey]

@[simp] theorem subsystem_push (d : Draft) (bitness : Bitness) (build : Nat)
    (statement : String) : (d.push bitness build statement).subsystem = d.subsystem := by
  cases bitness <;> rfl

@[simp] theorem signature_push (d : Draft) (bitness : Bitness) (build : Nat)
    (statement : String) : (d.push bitness build statement).signature = d.signature := by
  cases bitness <;> rfl

@[simp] theorem targets_push (d : Draft) (bitness : Bitness) (build : Nat)
    (statement : String) : (d.push bitness build statement).targets = d.targets := by
  cases bitness <;> rfl

@[simp] theorem processed_push (d : Draft) (bitness : Bitness) (build : Nat)
    (statement : String) : (d.push bitness build statement).processed = d.processed := by
  cases bitness <;> rfl

/-- The draft with the mark that the variant was offered. -/
def offer (d : Draft) (v : Variant) : Draft :=
  { d with processed := v.key :: d.processed }

@[simp] theorem cases_offer (d : Draft) (v : Variant) : (d.offer v).cases = d.cases := by
  funext b
  cases b <;> rfl

/-- A step succeeds with a variant that is new and belongs to the subsystem, and records its
exemption or its match. -/
theorem process_ok {d : Draft} {v : Variant} (h : (d.process v).result = .ok ()) :
    v.id.subsystem = d.subsystem ∧ v.key ∉ d.processed ∧
      ((∃ statement, d.signature.exemption v.id = some statement ∧
          (d.process v).state = (d.offer v).push v.id.bitness v.id.build statement) ∨
        ∃ m, d.signature.target? v = some m ∧
          (d.process v).state = { d.offer v with targets := d.targets ++ [m] }) := by
  unfold process at h ⊢
  by_cases hsubsystem : v.id.subsystem = d.subsystem
  · simp only [hsubsystem, ne_eq, not_true_eq_false, if_false] at h ⊢
    by_cases hoffered : d.processed.contains (v.id.build, v.id.bitness) = true
    · rw [if_pos hoffered] at h
      cases h
    · rw [if_neg hoffered] at h ⊢
      refine ⟨trivial, by simpa [Variant.key] using hoffered, ?_⟩
      unfold locate at h ⊢
      cases hexempt : d.signature.exemption v.id with
      | some statement =>
          exact .inl ⟨statement, rfl, rfl⟩
      | none =>
          simp only [hexempt] at h ⊢
          cases hfind : d.signature.find v with
          | error e =>
              simp only [hfind] at h
              cases h
          | ok s =>
              exact .inr ⟨_, Signature.target?_of_found hexempt hfind, rfl⟩
  · simp only [ne_eq, hsubsystem, not_false_eq_true, if_true] at h
    cases h

/-- A step that fails changes nothing but the marks. -/
theorem process_error {d : Draft} {v : Variant} {e : Error}
    (h : (d.process v).result = .error e) :
    (d.process v).state = d ∨ (d.process v).state = d.offer v := by
  unfold process at h ⊢
  dsimp only at h ⊢
  split
  · exact .inl rfl
  · rename_i hsubsystem
    rw [if_neg hsubsystem] at h
    split
    · exact .inl rfl
    · rename_i hoffered
      rw [if_neg hoffered] at h
      right
      unfold locate at h ⊢
      cases hexempt : d.signature.exemption v.id with
      | some statement =>
          simp only [hexempt] at h
          cases h
      | none =>
          simp only [hexempt] at h ⊢
          cases hfind : d.signature.find v with
          | error e => rfl
          | ok s =>
              simp only [hfind] at h
              cases h

/-!
# Runs
-/

/-- The draft after all these variants were offered to it. -/
def after (d : Draft) (vs : List Variant) : Draft :=
  vs.foldl (fun d v => (d.process v).state) d

/-- The variants that the draft takes in without an error. -/
def accepted (d : Draft) : List Variant → List Variant
  | [] => []
  | v :: vs =>
      match (d.process v).result with
      | .ok () => v :: accepted (d.process v).state vs
      | .error _ => accepted (d.process v).state vs

/-- The variants belong to the draft, and no two of them have the same key. -/
structure Holds (d : Draft) (vs : List Variant) : Prop where
  subsystem : ∀ v ∈ vs, v.id.subsystem = d.subsystem
  processed : ∀ v ∈ vs, v.key ∈ d.processed
  keys : (vs.map Variant.key).Nodup

/-- The draft has a target or the case of an exemption for each of the variants, and nothing
else. -/
structure Records (d : Draft) (vs : List Variant) : Prop extends Holds d vs where
  handled : ∀ v ∈ vs, d.signature.exemption v.id = none → ∃ m, d.signature.target? v = some m
  targets : d.targets = vs.filterMap d.signature.target?
  exempt : ∀ n b statements, (d.cases b).statements? n = some statements ↔
    ∃ v ∈ vs, v.key = (n, b) ∧
      ∃ statement, d.signature.exemption v.id = some statement ∧ statements = [statement]

theorem new_records (subsystem : Subsystem) (g : Signature) :
    (new subsystem g).Records [] := by
  refine ⟨⟨by simp, by simp, List.nodup_nil⟩, by simp, rfl, ?_⟩
  intro n b statements
  have hnone : ((new subsystem g).cases b).statements? n = none := by
    cases b <;> rfl
  simp [hnone]

theorem Records.offer {d : Draft} {vs : List Variant} (h : d.Records vs) (v : Variant) :
    (d.offer v).Records vs := by
  refine ⟨⟨h.subsystem, ?_, h.keys⟩, h.handled, h.targets, h.exempt⟩
  intro w hw
  exact List.mem_cons_of_mem _ (h.processed w hw)

theorem Holds.append {d : Draft} {vs : List Variant} (h : d.Holds vs) {v : Variant}
    (hsubsystem : v.id.subsystem = d.subsystem) (hnew : v.key ∉ d.processed) :
    (d.offer v).Holds (vs ++ [v]) := by
  constructor
  · intro w hw
    rcases List.mem_append.mp hw with hold | hlast
    · exact h.subsystem w hold
    · rw [List.mem_singleton.mp hlast]
      exact hsubsystem
  · intro w hw
    rcases List.mem_append.mp hw with hold | hlast
    · exact List.mem_cons_of_mem _ (h.processed w hold)
    · rw [List.mem_singleton.mp hlast]
      exact List.mem_cons_self
  · rw [List.map_append, List.nodup_append]
    refine ⟨h.keys, List.nodup_singleton _, ?_⟩
    intro key hkey key' hkey' heq
    rcases List.mem_map.mp hkey with ⟨w, hw, hwkey⟩
    have hprocessed := h.processed w hw
    rw [hwkey, heq, List.mem_singleton.mp hkey'] at hprocessed
    exact hnew hprocessed

theorem Records.statements?_eq_none {d : Draft} {vs : List Variant} (h : d.Records vs)
    {v : Variant} (hnew : v.key ∉ d.processed) :
    (d.cases v.id.bitness).statements? v.id.build = none := by
  cases hsome : (d.cases v.id.bitness).statements? v.id.build with
  | none => rfl
  | some statements =>
      rcases (h.exempt _ _ statements).mp hsome with ⟨w, hw, hkey, _⟩
      have hprocessed := h.processed w hw
      rw [hkey] at hprocessed
      exact absurd hprocessed hnew

theorem Records.push {d : Draft} {vs : List Variant} (h : d.Records vs) {v : Variant}
    {statement : String} (hsubsystem : v.id.subsystem = d.subsystem)
    (hnew : v.key ∉ d.processed) (hexempt : d.signature.exemption v.id = some statement) :
    ((d.offer v).push v.id.bitness v.id.build statement).Records (vs ++ [v]) := by
  have hholds := h.toHolds.append hsubsystem hnew
  refine ⟨⟨?_, ?_, hholds.keys⟩, ?_, ?_, ?_⟩
  · rw [subsystem_push]
    exact hholds.subsystem
  · rw [processed_push]
    exact hholds.processed
  · intro w hw hnone
    rw [signature_push] at hnone ⊢
    rcases List.mem_append.mp hw with hold | hlast
    · exact h.handled w hold hnone
    · rw [List.mem_singleton.mp hlast] at hnone
      exact absurd (hexempt.symm.trans hnone) (Option.some_ne_none statement)
  · have hlast : [v].filterMap d.signature.target? = [] := by
      simp [Signature.target?_of_exempt hexempt]
    rw [targets_push, signature_push, List.filterMap_append]
    show d.targets = vs.filterMap d.signature.target? ++ [v].filterMap d.signature.target?
    rw [hlast, List.append_nil]
    exact h.targets
  · intro n b statements
    have hnone := h.statements?_eq_none hnew
    rw [signature_push, statements?_push_new (by rw [cases_offer]; exact hnone), cases_offer,
      h.exempt]
    show _ ↔ ∃ w ∈ vs ++ [v], _ ∧ ∃ own, d.signature.exemption w.id = some own ∧ _
    simp [or_and_right, exists_or, hexempt, Variant.key]

theorem Records.addTarget {d : Draft} {vs : List Variant} (h : d.Records vs) {v : Variant}
    {m : Match} (hsubsystem : v.id.subsystem = d.subsystem) (hnew : v.key ∉ d.processed)
    (htarget : d.signature.target? v = some m) :
    ({ d.offer v with targets := d.targets ++ [m] } : Draft).Records (vs ++ [v]) := by
  have hholds := h.toHolds.append hsubsystem hnew
  have hexempt := (Signature.target?_eq_some htarget).1
  refine ⟨⟨hholds.subsystem, hholds.processed, hholds.keys⟩, ?_, ?_, ?_⟩
  · intro w hw hnone
    rcases List.mem_append.mp hw with hold | hlast
    · exact h.handled w hold hnone
    · rw [List.mem_singleton.mp hlast]
      exact ⟨m, htarget⟩
  · have hlast : [v].filterMap d.signature.target? = [m] := by
      simp [htarget]
    show d.targets ++ [m] = (vs ++ [v]).filterMap d.signature.target?
    rw [List.filterMap_append, hlast, h.targets]
  · intro n b statements
    apply (h.exempt n b statements).trans
    show _ ↔ ∃ w ∈ vs ++ [v], _ ∧ ∃ own, d.signature.exemption w.id = some own ∧ _
    simp [or_and_right, exists_or, hexempt]

theorem Records.process_ok {d : Draft} {vs : List Variant} (h : d.Records vs) {v : Variant}
    (hok : (d.process v).result = .ok ()) : (d.process v).state.Records (vs ++ [v]) := by
  rcases Draft.process_ok hok with ⟨hsubsystem, hnew, hexempt | htarget⟩
  · rcases hexempt with ⟨statement, hstatement, hstate⟩
    rw [hstate]
    exact h.push hsubsystem hnew hstatement
  · rcases htarget with ⟨m, hm, hstate⟩
    rw [hstate]
    exact h.addTarget hsubsystem hnew hm

theorem Records.process_error {d : Draft} {vs : List Variant} (h : d.Records vs)
    {v : Variant} {e : Error} (herror : (d.process v).result = .error e) :
    (d.process v).state.Records vs := by
  rcases Draft.process_error herror with hstate | hstate
  · rw [hstate]
    exact h
  · rw [hstate]
    exact h.offer v

/-- After any run, a draft records exactly what it took in without an error. -/
theorem Records.after {d : Draft} {vs : List Variant} (h : d.Records vs)
    (offered : List Variant) :
    (d.after offered).Records (vs ++ d.accepted offered) := by
  induction offered generalizing d vs with
  | nil =>
      show d.Records (vs ++ [])
      rw [List.append_nil]
      exact h
  | cons v offered ih =>
      show ((d.process v).state.after offered).Records _
      unfold accepted
      cases hresult : (d.process v).result with
      | ok u =>
          have hrest := ih (h.process_ok hresult)
          rw [List.append_assoc] at hrest
          exact hrest
      | error e => exact ih (h.process_error hresult)

/-- Runs keep the subsystem and the signature of a draft. -/
theorem after_fixed (d : Draft) (offered : List Variant) :
    (d.after offered).subsystem = d.subsystem ∧
      (d.after offered).signature = d.signature := by
  induction offered generalizing d with
  | nil => exact ⟨rfl, rfl⟩
  | cons v offered ih =>
      have hstep : (d.process v).state.subsystem = d.subsystem ∧
          (d.process v).state.signature = d.signature := by
        cases hresult : (d.process v).result with
        | ok u =>
            rcases Draft.process_ok hresult with ⟨_, _, ⟨_, _, hstate⟩ | ⟨_, _, hstate⟩⟩
            · rw [hstate, subsystem_push, signature_push]
              exact ⟨rfl, rfl⟩
            · rw [hstate]
              exact ⟨rfl, rfl⟩
        | error e =>
            rcases Draft.process_error hresult with hstate | hstate
            · rw [hstate]
              exact ⟨rfl, rfl⟩
            · rw [hstate]
              exact ⟨rfl, rfl⟩
      show ((d.process v).state.after offered).subsystem = _ ∧
        ((d.process v).state.after offered).signature = _
      rw [(ih _).1, (ih _).2]
      exact hstep

@[simp] theorem subsystem_new_after (subsystem : Subsystem) (g : Signature)
    (offered : List Variant) : ((new subsystem g).after offered).subsystem = subsystem :=
  ((new subsystem g).after_fixed offered).1

@[simp] theorem signature_new_after (subsystem : Subsystem) (g : Signature)
    (offered : List Variant) : ((new subsystem g).after offered).signature = g :=
  ((new subsystem g).after_fixed offered).2

theorem accepted_subset (d : Draft) (offered : List Variant) :
    ∀ v ∈ d.accepted offered, v ∈ offered := by
  induction offered generalizing d with
  | nil =>
      intro v hv
      exact absurd hv List.not_mem_nil
  | cons w offered ih =>
      intro v hv
      unfold accepted at hv
      split at hv
      · rcases List.mem_cons.mp hv with heq | hmem
        · rw [heq]
          exact List.mem_cons_self
        · exact List.mem_cons_of_mem _ (ih _ v hmem)
      · exact List.mem_cons_of_mem _ (ih _ v hv)

theorem new_after_records (subsystem : Subsystem) (g : Signature) (offered : List Variant) :
    ((new subsystem g).after offered).Records ((new subsystem g).accepted offered) :=
  (new_records subsystem g).after offered

end Draft
end JumpHooks
