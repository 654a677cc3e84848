import JumpHooks.Patch.Generator
import JumpHooks.Proofs.Patch.History

/-!
# Successful generations

A generation that succeeds has loaded a variant for every key, each draft has taken all of
them in without an error, and every patch is what one of these drafts was finished into.
-/

namespace JumpHooks

namespace Generator

/-- Success means that every draft took the variant in. -/
theorem processAll_ok {v : Variant} {drafts : List Draft}
    (h : (processAll v drafts).result = .ok ()) :
    (processAll v drafts).state = drafts.map (fun d => (d.process v).state) ∧
      ∀ d ∈ drafts, (d.process v).result = .ok () := by
  induction drafts with
  | nil =>
      refine ⟨rfl, ?_⟩
      intro d hd
      exact absurd hd List.not_mem_nil
  | cons d drafts ih =>
      unfold processAll at h ⊢
      cases hresult : (d.process v).result with
      | error e =>
          simp only [hresult] at h
          cases h
      | ok u =>
          simp only [hresult] at h ⊢
          rcases ih h with ⟨hstate, hall⟩
          constructor
          · rw [hstate, List.map_cons]
          · intro other hother
            rcases List.mem_cons.mp hother with heq | hmem
            · rw [heq]
              exact hresult
            · exact hall other hmem

end Generator

namespace Generation

variable {κ : Type} {load : κ → Except Error Variant}

/-- Drafts do not look at each other: each is offered all variants in turn. -/
theorem run_ok {g : Generator} {keys : List κ} {patches : List Patch}
    (h : (run load g keys).result = .ok patches) :
    ∃ vs, List.Forall₂ (fun k v => load k = .ok v) keys vs ∧
      (∀ d ∈ g.drafts, d.accepted vs = vs) ∧
        List.Forall₂ (fun d p => (d.after vs).finish = .ok p) g.drafts patches := by
  -- On the keys, for all generators: the next one holds each draft after one more variant.
  induction keys generalizing g with
  | nil => exact ⟨[], .nil, fun d _ => rfl, Outcome.mapM_eq_ok.mp h⟩
  | cons k keys ih =>
      unfold run at h
      cases hload : load k with
      | error e =>
          rw [hload] at h
          cases h
      | ok v =>
          simp only [hload] at h
          cases hresult : (g.process v).result with
          | error e =>
              rw [hresult] at h
              cases h
          | ok u =>
              rw [hresult] at h
              rcases Generator.processAll_ok hresult with ⟨hstate, hall⟩
              change (g.process v).state.drafts = _ at hstate
              rcases ih h with ⟨vs, hvs, haccepted, hpatches⟩
              rw [hstate] at haccepted hpatches
              refine ⟨v :: vs, .cons hload hvs, ?_, List.forall₂_map_left_iff.mp hpatches⟩
              intro d hd
              unfold Draft.accepted
              rw [hall d hd]
              show v :: (d.process v).state.accepted vs = v :: vs
              rw [haccepted _ (List.mem_map.mpr ⟨d, hd, rfl⟩)]

/-- Every patch comes from a draft that records all variants that were loaded. -/
theorem generate_ok {subsystem : Subsystem} {keys : List κ} {patches : List Patch}
    (h : (generate load subsystem keys).result = .ok patches) {p : Patch} (hp : p ∈ patches) :
    ∃ g ∈ Signature.inSubsystem subsystem, ∃ vs,
      List.Forall₂ (fun k v => load k = .ok v) keys vs ∧
        ((Draft.new subsystem g).after vs).Records vs ∧
          ((Draft.new subsystem g).after vs).finish = .ok p := by
  rcases run_ok h with ⟨vs, hvs, haccepted, hpatches⟩
  rcases Outcome.exists_of_mem (List.forall₂_map_left_iff.mp hpatches) hp with
    ⟨g, hg, hfinish⟩
  have hrecords := Draft.new_after_records subsystem g vs
  rw [haccepted _ (List.mem_map.mpr ⟨g, hg, rfl⟩)] at hrecords
  exact ⟨g, hg, vs, hvs, hrecords, hfinish⟩

end Generation
end JumpHooks
