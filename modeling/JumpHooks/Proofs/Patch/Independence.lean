import JumpHooks.Proofs.Patch.FirstFailure

/-!
# Independence of signatures

A generator with several signatures does for each of them what it would do with this one alone.
One that fails stops all the others, but as long as nothing fails no signature can tell which
others are with it.
-/

namespace JumpHooks

namespace Generator

variable {subsystem : Subsystem} {signatures : List Signature} {vs : List Variant}
  {patches : List Patch}

/-- The generator takes in all these variants one after the other and is then finished into the
patches, without any error. -/
structure Succeeds (g : Generator) (vs : List Variant) (patches : List Patch) : Prop where
  processed : ∀ before v later, vs = before ++ v :: later →
    ((g.after before).process v).result = .ok ()
  finished : (g.after vs).finish = .ok patches

/-- What the generator takes in is taken in by each of its signatures. -/
theorem takesAll_of_processed
    (h : ∀ before v later, vs = before ++ v :: later →
      (((withSignatures subsystem signatures).after before).process v).result = .ok ()) :
    ∀ g ∈ signatures, g.TakesAll subsystem vs := by
  -- On the variants from the last one: the draft of each signature has taken in those before it.
  induction vs using List.reverseRecOn with
  | nil => exact fun g _ => g.takesAll_nil subsystem
  | append_singleton vs v ih =>
      have hbefore : ∀ g ∈ signatures, g.TakesAll subsystem vs := by
        apply ih
        intro before w later heq
        apply h before w (later ++ [v])
        rw [heq, List.append_assoc, List.cons_append]
      have hlast := (process_after_eq_ok hbefore).mp (h vs v [] rfl)
      intro g hg
      exact Signature.takesAll_append_singleton.mpr ⟨hbefore g hg, hlast g hg⟩

theorem succeeds_iff : (withSignatures subsystem signatures).Succeeds vs patches ↔
    (∀ g ∈ signatures, g.TakesAll subsystem vs) ∧
      signatures.mapM (fun g => ((Draft.new subsystem g).after vs).finish) = .ok patches := by
  constructor
  · intro h
    have htakes := takesAll_of_processed h.processed
    have hfinished := h.finished
    rw [finish_after htakes] at hfinished
    exact ⟨htakes, hfinished⟩
  · intro h
    rcases h with ⟨htakes, hfinish⟩
    constructor
    · intro before v later heq
      have hbefore : ∀ g ∈ signatures, g.TakesAll subsystem before := by
        intro g hg
        have htaken := htakes g hg
        rw [heq] at htaken
        exact htaken.of_append
      rw [process_after_eq_ok hbefore]
      intro g hg
      exact htakes g hg before v later heq
    · rw [finish_after htakes]
      exact hfinish

theorem succeeds_singleton_iff {g : Signature} :
    (withSignatures subsystem [g]).Succeeds vs patches ↔
      g.TakesAll subsystem vs ∧
        ∃ p, ((Draft.new subsystem g).after vs).finish = .ok p ∧ patches = [p] := by
  rw [succeeds_iff, List.forall_mem_singleton, Outcome.mapM_eq_ok, List.forall₂_cons_left_iff]
  simp only [List.forall₂_nil_left_iff, exists_and_left, exists_eq_left]

/-- A generator succeeds exactly if each of its signatures does alone, over the same variants,
and its patches are theirs. -/
theorem succeeds_iff_alone (subsystem : Subsystem) (signatures : List Signature)
    (vs : List Variant) :
    ((∃ patches, (withSignatures subsystem signatures).Succeeds vs patches) ↔
      ∀ g ∈ signatures, ∃ patches, (withSignatures subsystem [g]).Succeeds vs patches) ∧
    ∀ patches, (withSignatures subsystem signatures).Succeeds vs patches →
      List.Forall₂
        (fun g p => ∀ alone, (withSignatures subsystem [g]).Succeeds vs alone ↔ alone = [p])
        signatures patches := by
  constructor
  · simp only [succeeds_iff, exists_and_left, Outcome.exists_mapM_eq_ok_iff,
      List.forall_mem_singleton, forall_and]
  · intro patches h
    rcases succeeds_iff.mp h with ⟨htakes, hfinish⟩
    have hboth := (List.forall₂_and_left _ _).mpr ⟨htakes, Outcome.mapM_eq_ok.mp hfinish⟩
    apply hboth.imp
    intro g p hp alone
    rw [succeeds_singleton_iff]
    constructor
    · intro halone
      rcases halone with ⟨_, q, hq, halone⟩
      cases Except.ok.inj (hp.2.symm.trans hq)
      exact halone
    · intro halone
      exact ⟨hp.1, p, hp.2, halone⟩

/-- The same signature twice is found twice. -/
theorem succeeds_iff_alone_twice :
    ∃ vs p, List.Forall₂ (fun build v => warningBuild build = .ok v) [6156, 5767] vs ∧
      (withSignatures .system [.cryWarning]).Succeeds vs [p] ∧
        (withSignatures .system [.cryWarning, .cryWarning]).Succeeds vs [p, p] := by
  have hcount : (generate warningBuild .system [6156, 5767]).result.map List.length = .ok 1 := by
    decide +kernel
  rcases Outcome.map_eq_ok.mp hcount with ⟨patches, hpatches, _⟩
  rcases Generation.run_eq_ok.mp hpatches with ⟨vs, hsmooth, hfinish⟩
  have hsingle : (withSignatures .system [.cryWarning]).Succeeds vs patches :=
    succeeds_iff.mpr ⟨hsmooth.taken, Outcome.mapM_eq_ok.mpr hfinish⟩
  rcases succeeds_iff_alone .system [.cryWarning, .cryWarning] vs with ⟨hexists, halone⟩
  rcases hexists.mpr (by simpa using ⟨patches, hsingle⟩) with ⟨both, hboth⟩
  rcases List.forall₂_cons_left_iff.mp (halone both hboth) with ⟨p, rest, hp, hrest, rfl⟩
  rcases List.forall₂_cons_left_iff.mp hrest with ⟨q, none, hq, hnone, rfl⟩
  cases hnone
  cases (hp _).mp hsingle
  cases (hq _).mp hsingle
  exact ⟨vs, p, hsmooth.loaded, hsingle, hboth⟩

end Generator
end JumpHooks
