import JumpHooks.Proofs.Patch.Overwrite
import JumpHooks.Proofs.Patch.Verdict

/-!
# The first failure of a generation

A generation loads one element after the other, has every signature process it, and finishes
the patches when there are no more elements. What can fail on the way is fixed by the verdicts
of the signatures, and the generation fails with the first of these failures or succeeds with
a patch for each signature. It has then asked for no element behind the one that it failed at.
-/

namespace JumpHooks

/-!
# Generators
-/

namespace Generator

variable {subsystem : Subsystem} {signatures : List Signature} {vs : List Variant} {v : Variant}

/-- The generator after all these variants were offered to it. -/
def after (g : Generator) (vs : List Variant) : Generator :=
  vs.foldl (fun g v => (g.process v).state) g

theorem after_append (g : Generator) (xs ys : List Variant) :
    g.after (xs ++ ys) = (g.after xs).after ys :=
  List.foldl_append

theorem result_processAll_cons (v : Variant) (d : Draft) (drafts : List Draft) :
    (processAll v (d :: drafts)).result =
      (d.process v).result >>= fun _ => (processAll v drafts).result := by
  conv_lhs => unfold processAll
  cases h : (d.process v).result with
  | error e =>
      simp only [h]
      rfl
  | ok u =>
      simp only [h]
      rfl

theorem processAll_eq_error {drafts : List Draft} {e : Error} :
    (processAll v drafts).result = .error e ↔
      Outcome.FirstError (fun d => (d.process v).result) drafts e := by
  induction drafts with
  | nil => simp [processAll, Outcome.not_firstError_nil]
  | cons d drafts ih =>
      rw [Outcome.firstError_cons, ← ih, result_processAll_cons, Outcome.bind_eq_error]
      simp only [exists_and_right]

theorem processAll_eq_ok {drafts : List Draft} :
    (processAll v drafts).result = .ok () ↔ ∀ d ∈ drafts, (d.process v).result = .ok () := by
  constructor
  · intro h
    exact (processAll_ok h).2
  · intro h
    cases hresult : (processAll v drafts).result with
    | ok u => rfl
    | error e =>
        rcases processAll_eq_error.mp hresult with ⟨before, d, later, hdrafts, _, hd⟩
        have hok := h d (by simp [hdrafts])
        cases hok.symm.trans hd

/-- As long as every signature takes everything, the drafts do not know of each other. -/
theorem drafts_after (h : ∀ g ∈ signatures, g.TakesAll subsystem vs) :
    ((withSignatures subsystem signatures).after vs).drafts =
      signatures.map fun g => (Draft.new subsystem g).after vs := by
  induction vs using List.reverseRecOn with
  | nil => rfl
  | append_singleton vs v ih =>
      have hbefore := ih fun g hg => (Signature.takesAll_append_singleton.mp (h g hg)).1
      have hall : ∀ d ∈ ((withSignatures subsystem signatures).after vs).drafts,
          (d.process v).result = .ok () := by
        intro d hd
        rw [hbefore] at hd
        rcases List.mem_map.mp hd with ⟨g, hg, rfl⟩
        rw [Draft.process_result_after]
        exact (Signature.takesAll_append_singleton.mp (h g hg)).2
      rw [after_append]
      show (processAll v ((withSignatures subsystem signatures).after vs).drafts).state = _
      rw [(processAll_ok (processAll_eq_ok.mpr hall)).1, hbefore, List.map_map]
      apply List.map_congr_left
      intro g _
      rw [Draft.after_append]
      rfl

theorem finish_after (h : ∀ g ∈ signatures, g.TakesAll subsystem vs) :
    ((withSignatures subsystem signatures).after vs).finish =
      signatures.mapM fun g => ((Draft.new subsystem g).after vs).finish := by
  show ((withSignatures subsystem signatures).after vs).drafts.mapM Draft.finish = _
  rw [drafts_after h, List.mapM_map]
  rfl

theorem process_after_eq_ok (h : ∀ g ∈ signatures, g.TakesAll subsystem vs) :
    (((withSignatures subsystem signatures).after vs).process v).result = .ok () ↔
      ∀ g ∈ signatures, g.verdict subsystem vs v = .ok () := by
  show (processAll v ((withSignatures subsystem signatures).after vs).drafts).result = _ ↔ _
  rw [processAll_eq_ok, drafts_after h, List.forall_mem_map]
  simp only [Draft.process_result_after]

theorem process_after_eq_error (h : ∀ g ∈ signatures, g.TakesAll subsystem vs) {e : Error} :
    (((withSignatures subsystem signatures).after vs).process v).result = .error e ↔
      Outcome.FirstError (fun g : Signature => g.verdict subsystem vs v) signatures e := by
  show (processAll v ((withSignatures subsystem signatures).after vs).drafts).result = _ ↔ _
  rw [processAll_eq_error, drafts_after h, Outcome.firstError_map]
  simp only [Draft.process_result_after]

end Generator

namespace Generation

variable {κ : Type} {load : κ → Except Error Variant} {subsystem : Subsystem}
  {signatures : List Signature} {keys : List κ} {vs : List Variant}

/-!
# Elements without a failure
-/

/-- All elements load, and every signature takes in what they are loaded to. -/
structure Smooth (load : κ → Except Error Variant) (subsystem : Subsystem)
    (signatures : List Signature) (keys : List κ) (vs : List Variant) : Prop where
  loaded : List.Forall₂ (fun k v => load k = .ok v) keys vs
  taken : ∀ g ∈ signatures, g.TakesAll subsystem vs

/-- The first failure of a generation with these signatures, and the number of elements that
were asked for until then. -/
inductive FirstFailure (load : κ → Except Error Variant) (subsystem : Subsystem)
    (signatures : List Signature) (keys : List κ) : Nat → Error → Prop where
  | loading {before : List κ} {k : κ} {later : List κ} {vs : List Variant} {e : Error}
      (hkeys : keys = before ++ k :: later) (hbefore : Smooth load subsystem signatures before vs)
      (hload : load k = .error e) :
      FirstFailure load subsystem signatures keys (before.length + 1) e
  | processing {before : List κ} {k : κ} {later : List κ} {vs : List Variant} {v : Variant}
      {e : Error} (hkeys : keys = before ++ k :: later)
      (hbefore : Smooth load subsystem signatures before vs) (hload : load k = .ok v)
      (hverdict : Outcome.FirstError (fun g : Signature => g.verdict subsystem vs v) signatures e) :
      FirstFailure load subsystem signatures keys (before.length + 1) e
  | finishing {vs : List Variant} {e : Error} (hkeys : Smooth load subsystem signatures keys vs)
      (hfinish :
        Outcome.FirstError (fun g => ((Draft.new subsystem g).after vs).finish) signatures e) :
      FirstFailure load subsystem signatures keys keys.length e

theorem Smooth.append_singleton (h : Smooth load subsystem signatures keys vs) {k : κ}
    {v : Variant} (hload : load k = .ok v)
    (hverdict : ∀ g ∈ signatures, g.verdict subsystem vs v = .ok ()) :
    Smooth load subsystem signatures (keys ++ [k]) (vs ++ [v]) := by
  constructor
  · exact List.rel_append h.loaded (.cons hload .nil)
  · intro g hg
    exact Signature.takesAll_append_singleton.mpr ⟨h.taken g hg, hverdict g hg⟩

theorem Smooth.take (h : Smooth load subsystem signatures keys vs) (n : Nat) :
    Smooth load subsystem signatures (keys.take n) (vs.take n) := by
  constructor
  · exact List.forall₂_take n h.loaded
  · intro g hg
    have htaken := h.taken g hg
    rw [← List.take_append_drop n vs] at htaken
    exact htaken.of_append

/-!
# The run of a generator
-/

theorem run_cons_of_error {g : Generator} {k : κ} {e : Error} (hload : load k = .error e)
    (keys : List κ) : run load g (k :: keys) = ⟨1, [], .error e⟩ := by
  conv_lhs => unfold run
  rw [hload]

theorem run_cons_of_stop {g : Generator} {k : κ} {v : Variant} {e : Error}
    (hload : load k = .ok v) (hresult : (g.process v).result = .error e) (keys : List κ) :
    run load g (k :: keys) = ⟨1, v.decodedEvent :: (g.process v).events, .error e⟩ := by
  conv_lhs => unfold run
  simp only [hload, hresult]

theorem run_cons_of_ok {g : Generator} {k : κ} {v : Variant} (hload : load k = .ok v)
    (hresult : (g.process v).result = .ok ()) (keys : List κ) :
    (run load g (k :: keys)).result = (run load (g.process v).state keys).result ∧
      (run load g (k :: keys)).loaded = (run load (g.process v).state keys).loaded + 1 := by
  have hrun : run load g (k :: keys) =
      ⟨(run load (g.process v).state keys).loaded + 1,
        v.decodedEvent :: (g.process v).events ++ (run load (g.process v).state keys).events,
        (run load (g.process v).state keys).result⟩ := by
    conv_lhs => unfold run
    simp only [hload, hresult]
  rw [hrun]
  exact ⟨rfl, rfl⟩

/-- A run goes on behind elements that every draft took in. -/
theorem run_append {g : Generator} {before : List κ}
    (hload : List.Forall₂ (fun k v => load k = .ok v) before vs)
    (hok : ∀ earlier v later, vs = earlier ++ v :: later →
      ((g.after earlier).process v).result = .ok ()) (keys : List κ) :
    (run load g (before ++ keys)).result = (run load (g.after vs) keys).result ∧
      (run load g (before ++ keys)).loaded =
        before.length + (run load (g.after vs) keys).loaded := by
  induction hload generalizing g with
  | nil => exact ⟨rfl, (Nat.zero_add _).symm⟩
  | @cons k v before vs hk _ ih =>
      have hresult : (g.process v).result = .ok () := hok [] v vs rfl
      have hfirst := run_cons_of_ok hk hresult (before ++ keys)
      have hrest := ih (g := (g.process v).state) fun earlier w later heq =>
        hok (v :: earlier) w later (by rw [heq]; rfl)
      rw [List.cons_append, hfirst.1, hfirst.2, hrest.1, hrest.2, List.length_cons,
        Nat.add_right_comm]
      exact ⟨rfl, rfl⟩

theorem Smooth.run_append (h : Smooth load subsystem signatures keys vs) (later : List κ) :
    (run load (.withSignatures subsystem signatures) (keys ++ later)).result =
        (run load ((Generator.withSignatures subsystem signatures).after vs) later).result ∧
      (run load (.withSignatures subsystem signatures) (keys ++ later)).loaded = keys.length +
        (run load ((Generator.withSignatures subsystem signatures).after vs) later).loaded := by
  apply Generation.run_append h.loaded
  intro earlier v rest heq
  rw [Generator.process_after_eq_ok]
  · intro g hg
    exact h.taken g hg earlier v rest heq
  · intro g hg
    have htaken := h.taken g hg
    rw [heq] at htaken
    exact htaken.of_append

theorem Smooth.finish (h : Smooth load subsystem signatures keys vs) :
    (run load (.withSignatures subsystem signatures) keys).result =
        signatures.mapM (fun g => ((Draft.new subsystem g).after vs).finish) ∧
      (run load (.withSignatures subsystem signatures) keys).loaded = keys.length := by
  have hrun := h.run_append []
  rw [List.append_nil] at hrun
  exact ⟨hrun.1.trans (Generator.finish_after h.taken), hrun.2⟩

theorem FirstFailure.run {n : Nat} {e : Error}
    (h : FirstFailure load subsystem signatures keys n e) :
    (run load (.withSignatures subsystem signatures) keys).result = .error e ∧
      (run load (.withSignatures subsystem signatures) keys).loaded = n := by
  cases h with
  | @loading before k later vs e hkeys hbefore hload =>
      have hrun := hbefore.run_append (k :: later)
      rw [← hkeys] at hrun
      rw [hrun.1, hrun.2, run_cons_of_error hload]
      exact ⟨rfl, rfl⟩
  | @processing before k later vs v e hkeys hbefore hload hverdict =>
      have hrun := hbefore.run_append (k :: later)
      have hresult := (Generator.process_after_eq_error hbefore.taken).mpr hverdict
      rw [← hkeys] at hrun
      rw [hrun.1, hrun.2, run_cons_of_stop hload hresult]
      exact ⟨rfl, rfl⟩
  | @finishing vs e hkeys hfinish =>
      rw [hkeys.finish.1, Outcome.mapM_eq_error]
      exact ⟨hfinish, hkeys.finish.2⟩

/-- Whatever comes before, the elements that are left are smooth or have a first failure. -/
theorem smooth_or_firstFailure {before : List κ}
    (h : Smooth load subsystem signatures before vs) (later : List κ) :
    (∃ all, Smooth load subsystem signatures (before ++ later) all) ∨
      ∃ n e, FirstFailure load subsystem signatures (before ++ later) n e := by
  induction later generalizing before vs with
  | nil =>
      rw [List.append_nil]
      exact .inl ⟨vs, h⟩
  | cons k later ih =>
      cases hload : load k with
      | error e => exact .inr ⟨_, e, .loading rfl h hload⟩
      | ok v =>
          rcases Outcome.forall_ok_or_firstError (fun g : Signature => g.verdict subsystem vs v)
            signatures with hok | ⟨e, hfirst⟩
          · have hnext := ih (h.append_singleton hload fun g hg => by
              rcases hok g hg with ⟨_, hg⟩
              exact hg)
            rwa [List.append_assoc, List.singleton_append] at hnext
          · exact .inr ⟨_, e, .processing rfl h hload hfirst⟩

theorem smooth_nil (load : κ → Except Error Variant) (subsystem : Subsystem)
    (signatures : List Signature) : Smooth load subsystem signatures [] [] :=
  ⟨.nil, fun g _ => g.takesAll_nil subsystem⟩

theorem run_eq_ok {patches : List Patch} :
    (run load (.withSignatures subsystem signatures) keys).result = .ok patches ↔
      ∃ vs, Smooth load subsystem signatures keys vs ∧
        List.Forall₂ (fun g p => ((Draft.new subsystem g).after vs).finish = .ok p)
          signatures patches := by
  constructor
  · intro h
    rcases smooth_or_firstFailure (smooth_nil load subsystem signatures) keys with
      ⟨vs, hsmooth⟩ | ⟨n, e, hfailure⟩
    · rw [List.nil_append] at hsmooth
      rw [hsmooth.finish.1, Outcome.mapM_eq_ok] at h
      exact ⟨vs, hsmooth, h⟩
    · rw [List.nil_append] at hfailure
      rw [hfailure.run.1] at h
      cases h
  · intro h
    rcases h with ⟨vs, hsmooth, hfinish⟩
    rw [hsmooth.finish.1, Outcome.mapM_eq_ok]
    exact hfinish

theorem run_eq_error {e : Error} :
    (run load (.withSignatures subsystem signatures) keys).result = .error e ↔
      ∃ n, FirstFailure load subsystem signatures keys n e := by
  constructor
  · intro h
    rcases smooth_or_firstFailure (smooth_nil load subsystem signatures) keys with
      ⟨vs, hsmooth⟩ | ⟨n, e', hfailure⟩
    · rw [List.nil_append] at hsmooth
      rw [hsmooth.finish.1, Outcome.mapM_eq_error] at h
      exact ⟨_, .finishing hsmooth h⟩
    · rw [List.nil_append] at hfailure
      rw [hfailure.run.1] at h
      cases h
      exact ⟨n, hfailure⟩
  · intro h
    rcases h with ⟨n, hfailure⟩
    exact hfailure.run.1

/-- All elements in front of one that was asked for are without a failure. -/
theorem FirstFailure.smooth_of_lt {n m : Nat} {e : Error}
    (h : FirstFailure load subsystem signatures keys n e) (hm : m < n) :
    ∃ vs, Smooth load subsystem signatures (keys.take m) vs := by
  cases h with
  | @loading before k later vs e hkeys hbefore hload =>
      rw [hkeys, List.take_append_of_le_length (Nat.le_of_lt_succ hm)]
      exact ⟨_, hbefore.take m⟩
  | @processing before k later vs v e hkeys hbefore hload hverdict =>
      rw [hkeys, List.take_append_of_le_length (Nat.le_of_lt_succ hm)]
      exact ⟨_, hbefore.take m⟩
  | @finishing vs e hkeys hfinish => exact ⟨_, hkeys.take m⟩

/-- The targets of a patch are what its signature finds in each variant alone. -/
theorem forall₂_targets {g : Signature} (h : g.TakesAll subsystem vs) {p : Patch}
    (hfinish : ((Draft.new subsystem g).after vs).finish = .ok p) :
    List.Forall₂ (fun v t => ∃ s, g.find v = .ok s ∧ t = Match.ofSubroutine g.name v s)
      (vs.filter fun v => (g.exemption v.id).isNone) p.targets := by
  rw [Draft.targets_finish_new hfinish, Draft.accepted_of_takesAll h]
  apply Signature.forall₂_matches
  intro v hv
  exact ((Signature.takesAll_iff.mp h).2 v hv).2

theorem targets_run {patches : List Patch}
    (h : (run load (.withSignatures subsystem signatures) keys).result = .ok patches)
    (hloaded : List.Forall₂ (fun k v => load k = .ok v) keys vs) :
    List.Forall₂ (fun g p => List.Forall₂
      (fun v t => ∃ s, g.find v = .ok s ∧ t = Match.ofSubroutine g.name v s)
        (vs.filter fun v => (g.exemption v.id).isNone) p.targets) signatures patches := by
  rcases run_eq_ok.mp h with ⟨ws, hsmooth, hfinish⟩
  have hunique : Relator.RightUnique fun k v => load k = .ok v := by
    intro k v w hv hw
    exact Except.ok.inj (hv.symm.trans hw)
  rw [hunique.forall₂ hloaded hsmooth.loaded]
  have hboth := (List.forall₂_and_left _ _).mpr ⟨hsmooth.taken, hfinish⟩
  apply hboth.imp
  intro g p hp
  exact forall₂_targets hp.1 hp.2

end Generation

/-!
# All or nothing
-/

open Generation in
/-- A generation succeeds if nothing fails, and then a patch has the match of every variant that
is not exempt. Otherwise it ends with the first failure, and has asked for nothing behind it. -/
theorem generate_all_or_nothing {κ : Type} (load : κ → Except Error Variant)
    (subsystem : Subsystem) (keys : List κ) :
    (∀ patches, (generate load subsystem keys).result = .ok patches ↔
      ∃ vs, Smooth load subsystem (Signature.inSubsystem subsystem) keys vs ∧
        List.Forall₂ (fun g p => ((Draft.new subsystem g).after vs).finish = .ok p)
          (Signature.inSubsystem subsystem) patches) ∧
    (∀ patches vs, (generate load subsystem keys).result = .ok patches →
      List.Forall₂ (fun k v => load k = .ok v) keys vs →
        (generate load subsystem keys).loaded = keys.length ∧
          List.Forall₂ (fun g p => List.Forall₂
            (fun v t => ∃ s, g.find v = .ok s ∧ t = Match.ofSubroutine g.name v s)
              (vs.filter fun v => (g.exemption v.id).isNone) p.targets)
            (Signature.inSubsystem subsystem) patches) ∧
    (∀ e, (generate load subsystem keys).result = .error e ↔
      ∃ n, FirstFailure load subsystem (Signature.inSubsystem subsystem) keys n e) ∧
    (∀ n e, FirstFailure load subsystem (Signature.inSubsystem subsystem) keys n e →
      (generate load subsystem keys).loaded = n) ∧
    ∀ n < (generate load subsystem keys).loaded,
      ∃ vs, Smooth load subsystem (Signature.inSubsystem subsystem) (keys.take n) vs := by
  refine ⟨fun patches => run_eq_ok, ?_, fun e => run_eq_error, fun n e h => h.run.2, ?_⟩
  · intro patches vs h hloaded
    refine ⟨?_, targets_run h hloaded⟩
    rcases run_eq_ok.mp h with ⟨ws, hsmooth, _⟩
    exact hsmooth.finish.2
  · intro n hn
    cases hresult : (generate load subsystem keys).result with
    | ok patches =>
        rcases run_eq_ok.mp hresult with ⟨vs, hsmooth, _⟩
        exact ⟨_, hsmooth.take n⟩
    | error e =>
        rcases run_eq_error.mp hresult with ⟨m, hfailure⟩
        exact hfailure.smooth_of_lt (hn.trans_eq hfailure.run.2)

/-- Only some builds have a module. -/
def partialBuild (build : Nat) : Except Error Variant :=
  if build < 5767 then
    .error (.precondition (.unknownBuild build))
  else
    warningBuild build

theorem generate_all_or_nothing_unknown_build :
    (∃ patches, (generate partialBuild .system [6156, 5767]).result = .ok patches ∧
      (generate partialBuild .system [6156, 5767]).loaded = 2) ∧
    ∃ n, Generation.FirstFailure partialBuild .system (Signature.inSubsystem .system)
      [6156, 12, 5767, 13] n (.precondition (.unknownBuild 12)) ∧
        (generate partialBuild .system [6156, 12, 5767, 13]).loaded = n := by
  constructor
  · have hcount : ((generate partialBuild .system [6156, 5767]).result.map List.length) =
        .ok 1 := by
      decide +kernel
    cases h : (generate partialBuild .system [6156, 5767]).result with
    | error e =>
        rw [h] at hcount
        cases hcount
    | ok patches =>
        rcases generate_all_or_nothing partialBuild .system [6156, 5767] with ⟨hok, hloaded, _⟩
        rcases (hok patches).mp h with ⟨vs, hsmooth, _⟩
        exact ⟨patches, rfl, (hloaded patches vs h hsmooth.loaded).1⟩
  · rcases generate_all_or_nothing partialBuild .system [6156, 12, 5767, 13] with
      ⟨_, _, herror, hloaded, _⟩
    have hresult : ((generate partialBuild .system [6156, 12, 5767, 13]).result.map
        List.length) = .error (.precondition (.unknownBuild 12)) := by
      decide +kernel
    cases h : (generate partialBuild .system [6156, 12, 5767, 13]).result with
    | ok patches =>
        rw [h] at hresult
        cases hresult
    | error e =>
        rw [h] at hresult
        cases hresult
        rcases (herror _).mp h with ⟨n, hfailure⟩
        exact ⟨n, hfailure, hloaded n _ hfailure⟩

end JumpHooks
