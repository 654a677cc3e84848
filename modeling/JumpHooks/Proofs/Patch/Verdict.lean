import JumpHooks.Proofs.Outcome
import JumpHooks.Proofs.Patch.History
import Mathlib.Data.List.Induction

/-!
# Verdicts

What a draft answers to a variant depends on the variants that it was offered before only
through their identities. So the answer can be told from the signature and the variant alone,
without a draft, and which variants a draft takes in does not depend on their order.
-/

namespace JumpHooks

namespace Signature

/-- The answer of a signature to a variant that comes after `earlier` ones. -/
def verdict (g : Signature) (subsystem : Subsystem) (earlier : List Variant) (v : Variant) :
    Except Error Unit :=
  if v.id.subsystem ≠ subsystem then
    .error (.precondition (.otherSubsystem g.name v.id subsystem))
  else if v.id ∈ earlier.map Variant.id then
    .error (.precondition (.processedTwice g.name v.id))
  else
    match g.exemption v.id with
    | some _ => .ok ()
    | none => (g.find v).map fun _ => ()

/-- The variant is exempt, or it has one match. -/
def Handles (g : Signature) (v : Variant) : Prop :=
  (∃ statement, g.exemption v.id = some statement) ∨ ∃ s, g.find v = .ok s

/-- Every variant gets a good answer when its turn comes. -/
def TakesAll (g : Signature) (subsystem : Subsystem) (vs : List Variant) : Prop :=
  ∀ earlier v later, vs = earlier ++ v :: later → g.verdict subsystem earlier v = .ok ()

theorem verdict_eq_ok_iff {g : Signature} {subsystem : Subsystem} {earlier : List Variant}
    {v : Variant} : g.verdict subsystem earlier v = .ok () ↔
      v.id.subsystem = subsystem ∧ v.id ∉ earlier.map Variant.id ∧ g.Handles v := by
  unfold verdict Handles
  by_cases hsubsystem : v.id.subsystem = subsystem
  · rw [if_neg (not_not_intro hsubsystem)]
    by_cases hearlier : v.id ∈ earlier.map Variant.id
    · rw [if_pos hearlier]
      simp [hearlier]
    · rw [if_neg hearlier]
      cases hexempt : g.exemption v.id with
      | some statement => simp [hsubsystem, hearlier]
      | none =>
          cases hfind : g.find v with
          | error e => simp [Except.map]
          | ok s => simp [Except.map, hsubsystem, hearlier]
  · rw [if_pos hsubsystem]
    simp [hsubsystem]

theorem TakesAll.of_append {g : Signature} {subsystem : Subsystem} {xs ys : List Variant}
    (h : g.TakesAll subsystem (xs ++ ys)) : g.TakesAll subsystem xs := by
  intro earlier v later heq
  apply h earlier v (later ++ ys)
  rw [heq, List.append_assoc, List.cons_append]

theorem takesAll_append_singleton {g : Signature} {subsystem : Subsystem}
    {vs : List Variant} {v : Variant} : g.TakesAll subsystem (vs ++ [v]) ↔
      g.TakesAll subsystem vs ∧ g.verdict subsystem vs v = .ok () := by
  constructor
  · intro h
    exact ⟨h.of_append, h vs v [] rfl⟩
  · intro h earlier w later heq
    rcases List.eq_nil_or_concat later with hnil | ⟨others, last, hconcat⟩
    · rw [hnil] at heq
      rcases List.append_inj' heq rfl with ⟨hvs, hlast⟩
      cases hlast
      rw [← hvs]
      exact h.2
    · rw [hconcat, List.concat_eq_append, ← List.cons_append, ← List.append_assoc] at heq
      exact h.1 earlier w others (List.append_inj' heq rfl).1

theorem takesAll_nil (g : Signature) (subsystem : Subsystem) : g.TakesAll subsystem [] := by
  intro earlier v later heq
  cases earlier <;> cases heq

/-- The order of the variants does not matter. -/
theorem takesAll_iff {g : Signature} {subsystem : Subsystem} {vs : List Variant} :
    g.TakesAll subsystem vs ↔
      (vs.map Variant.id).Nodup ∧ ∀ v ∈ vs, v.id.subsystem = subsystem ∧ g.Handles v := by
  induction vs using List.reverseRecOn with
  | nil => simp [takesAll_nil]
  | append_singleton vs v ih =>
      rw [takesAll_append_singleton, ih, verdict_eq_ok_iff, List.map_append, List.map_singleton,
        List.nodup_append_comm, List.singleton_append, List.nodup_cons]
      constructor
      · intro h
        rcases h with ⟨⟨hnodup, hall⟩, hsubsystem, hnew, hhandles⟩
        refine ⟨⟨hnew, hnodup⟩, ?_⟩
        intro w hw
        rcases List.mem_append.mp hw with hold | hlast
        · exact hall w hold
        · rw [List.mem_singleton.mp hlast]
          exact ⟨hsubsystem, hhandles⟩
      · intro h
        rcases h with ⟨⟨hnew, hnodup⟩, hall⟩
        rcases hall v (List.mem_append_right _ (List.mem_singleton_self v)) with
          ⟨hsubsystem, hhandles⟩
        refine ⟨⟨hnodup, ?_⟩, hsubsystem, hnew, hhandles⟩
        intro w hw
        exact hall w (List.mem_append_left _ hw)

/-- The targets are the matches of the variants that are not exempt, in their order. -/
theorem forall₂_matches {g : Signature} {vs : List Variant} (h : ∀ v ∈ vs, g.Handles v) :
    List.Forall₂ (fun v t => ∃ s, g.find v = .ok s ∧ t = Match.ofSubroutine g.name v s)
      (vs.filter fun v => (g.exemption v.id).isNone) (vs.filterMap g.target?) := by
  induction vs with
  | nil => exact .nil
  | cons v vs ih =>
      have hrest := ih fun w hw => h w (List.mem_cons_of_mem _ hw)
      cases hexempt : g.exemption v.id with
      | some statement =>
          rw [List.filter_cons_of_neg (by simp [hexempt]),
            List.filterMap_cons_none (target?_of_exempt hexempt)]
          exact hrest
      | none =>
          rcases h v List.mem_cons_self with ⟨statement, hsome⟩ | ⟨s, hfind⟩
          · rw [hexempt] at hsome
            cases hsome
          · rw [List.filter_cons_of_pos (by simp [hexempt]),
              List.filterMap_cons_some (target?_of_found hexempt hfind)]
            exact .cons ⟨s, hfind, rfl⟩ hrest

end Signature

namespace Draft

/-!
# Answers of drafts
-/

theorem after_append (d : Draft) (xs ys : List Variant) :
    d.after (xs ++ ys) = (d.after xs).after ys :=
  List.foldl_append

theorem accepted_cons_of_ok {d : Draft} {v : Variant} (h : (d.process v).result = .ok ())
    (vs : List Variant) : d.accepted (v :: vs) = v :: (d.process v).state.accepted vs := by
  conv_lhs => unfold accepted
  rw [h]

theorem accepted_cons_of_error {d : Draft} {v : Variant} {e : Error}
    (h : (d.process v).result = .error e) (vs : List Variant) :
    d.accepted (v :: vs) = (d.process v).state.accepted vs := by
  conv_lhs => unfold accepted
  rw [h]

theorem accepted_append (d : Draft) (xs ys : List Variant) :
    d.accepted (xs ++ ys) = d.accepted xs ++ (d.after xs).accepted ys := by
  induction xs generalizing d with
  | nil => rfl
  | cons v xs ih =>
      show d.accepted (v :: (xs ++ ys)) = _ ++ ((d.process v).state.after xs).accepted ys
      cases h : (d.process v).result with
      | ok u => rw [accepted_cons_of_ok h, accepted_cons_of_ok h, ih, List.cons_append]
      | error e => rw [accepted_cons_of_error h, accepted_cons_of_error h, ih]

/-- A variant of the subsystem leaves its mark, whatever the answer is. -/
theorem mem_processed_process {d : Draft} {v : Variant} {key : Nat × Bitness} :
    key ∈ (d.process v).state.processed ↔
      key ∈ d.processed ∨ v.id.subsystem = d.subsystem ∧ v.key = key := by
  unfold process
  by_cases hsubsystem : v.id.subsystem = d.subsystem
  · simp only [hsubsystem, ne_eq, not_true_eq_false, if_false, true_and]
    by_cases hoffered : d.processed.contains (v.id.build, v.id.bitness) = true
    · rw [if_pos hoffered]
      constructor
      · intro h
        exact .inl h
      · intro h
        rcases h with h | heq
        · exact h
        · rw [← heq]
          exact List.contains_iff_mem.mp hoffered
    · rw [if_neg hoffered]
      have hmarks : (locate { d with processed := v.key :: d.processed } v).state.processed =
          v.key :: d.processed := by
        unfold locate
        split
        · exact processed_push _ _ _ _
        · split <;> rfl
      show key ∈ (locate { d with processed := v.key :: d.processed } v).state.processed ↔ _
      rw [hmarks, List.mem_cons, or_comm, eq_comm]
  · simp [hsubsystem]

theorem mem_processed_after {d : Draft} {offered : List Variant} {key : Nat × Bitness} :
    key ∈ (d.after offered).processed ↔
      key ∈ d.processed ∨ ∃ v ∈ offered, v.id.subsystem = d.subsystem ∧ v.key = key := by
  induction offered generalizing d with
  | nil => simp [after]
  | cons v offered ih =>
      have hsubsystem : (d.process v).state.subsystem = d.subsystem :=
        (d.after_fixed [v]).1
      show key ∈ ((d.process v).state.after offered).processed ↔ _
      rw [ih, mem_processed_process, hsubsystem]
      simp [or_assoc]

theorem process_result (d : Draft) (v : Variant) :
    (d.process v).result =
      if v.id.subsystem ≠ d.subsystem then
        .error (.precondition (.otherSubsystem d.signature.name v.id d.subsystem))
      else if v.key ∈ d.processed then
        .error (.precondition (.processedTwice d.signature.name v.id))
      else
        match d.signature.exemption v.id with
        | some _ => .ok ()
        | none => (d.signature.find v).map fun _ => () := by
  unfold process
  by_cases hsubsystem : v.id.subsystem ≠ d.subsystem
  · rw [if_pos hsubsystem, if_pos hsubsystem]
  · rw [if_neg hsubsystem, if_neg hsubsystem]
    have hcontains : d.processed.contains (v.id.build, v.id.bitness) = true ↔
        v.key ∈ d.processed := List.contains_iff_mem
    by_cases hoffered : v.key ∈ d.processed
    · rw [if_pos hoffered, if_pos (hcontains.mpr hoffered)]
    · rw [if_neg hoffered, if_neg (fun h => hoffered (hcontains.mp h))]
      unfold locate
      cases d.signature.exemption v.id with
      | some statement => rfl
      | none => cases d.signature.find v <;> rfl

/-- Within a subsystem, the marks of a draft stand for identities. -/
theorem mem_processed_new_iff {subsystem : Subsystem} {g : Signature}
    {earlier : List Variant} {v : Variant} (hv : v.id.subsystem = subsystem) :
    v.key ∈ ((new subsystem g).after earlier).processed ↔ v.id ∈ earlier.map Variant.id := by
  rw [mem_processed_after, List.mem_map]
  constructor
  · intro h
    rcases h with hnil | ⟨w, hw, hsubsystem, hkey⟩
    · exact absurd hnil List.not_mem_nil
    · refine ⟨w, hw, ?_⟩
      change w.id.subsystem = subsystem at hsubsystem
      rcases Prod.mk.inj hkey with ⟨hbuild, hbitness⟩
      cases hwid : w.id
      cases hvid : v.id
      simp_all
  · intro h
    rcases h with ⟨w, hw, hid⟩
    refine .inr ⟨w, hw, ?_, ?_⟩
    · rw [hid]
      exact hv
    · unfold Variant.key
      rw [hid]

/-- A draft answers with the verdict of its signature. -/
theorem process_result_after (subsystem : Subsystem) (g : Signature) (earlier : List Variant)
    (v : Variant) :
    (((new subsystem g).after earlier).process v).result = g.verdict subsystem earlier v := by
  rw [process_result, subsystem_new_after, signature_new_after]
  unfold Signature.verdict
  by_cases hv : v.id.subsystem = subsystem
  · simp only [mem_processed_new_iff hv]
  · rw [if_pos hv, if_pos hv]

theorem accepted_of_takesAll {subsystem : Subsystem} {g : Signature} {vs : List Variant}
    (h : g.TakesAll subsystem vs) : (new subsystem g).accepted vs = vs := by
  induction vs using List.reverseRecOn with
  | nil => rfl
  | append_singleton vs v ih =>
      rw [Signature.takesAll_append_singleton] at h
      have hresult := (process_result_after subsystem g vs v).trans h.2
      rw [accepted_append, ih h.1, accepted_cons_of_ok hresult]
      rfl

theorem records_of_takesAll {subsystem : Subsystem} {g : Signature} {vs : List Variant}
    (h : g.TakesAll subsystem vs) : ((new subsystem g).after vs).Records vs := by
  have hrecords := new_after_records subsystem g vs
  rwa [accepted_of_takesAll h] at hrecords

end Draft
end JumpHooks
