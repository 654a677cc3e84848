import JumpHooks.Patch.Cases
import JumpHooks.Proofs.Outcome
import Mathlib.Data.List.Find

/-!
# The statements of a build

Cases are looked up by their build. Adding a statement changes the case of one build and of no
other one, and the branches hold every build once, together with statements that agree with its
own but for blanks.
-/

namespace JumpHooks

/-!
# Look-up
-/

namespace Case

/-- The statements of a build in a list of cases. -/
def lookup (build : Nat) (cases : List Case) : Option (List String) :=
  (cases.find? fun c => c.build == build).map Case.statements

theorem lookup_cons (build : Nat) (c : Case) (cases : List Case) :
    lookup build (c :: cases) =
      if c.build = build then some c.statements else lookup build cases := by
  unfold lookup
  by_cases h : c.build = build
  · rw [if_pos h, List.find?_cons_of_pos (by simpa using h)]
    rfl
  · rw [if_neg h, List.find?_cons_of_neg (by simpa using h)]

theorem lookup_eq_none {build : Nat} {cases : List Case}
    (h : ∀ c ∈ cases, build < c.build) : lookup build cases = none := by
  unfold lookup
  rw [Option.map_eq_none_iff, List.find?_eq_none]
  intro c hc
  have hlt := h c hc
  simp only [beq_iff_eq]
  lia

/-- The case that `addTo` changes is found although it looks no further than to the first
greater build. -/
theorem lookup_addTo (build other : Nat) (statement : String) {cases : List Case}
    (h : cases.Pairwise fun a b => a.build < b.build) :
    lookup other (addTo build statement cases) =
      if build = other then some ((lookup build cases).getD [] ++ [statement])
      else lookup other cases := by
  induction cases with
  | nil =>
      show lookup other [⟨build, [statement]⟩] = _
      rw [lookup_cons]
      rfl
  | cons c cases ih =>
      rw [List.pairwise_cons] at h
      have hrest := ih h.2
      unfold addTo
      by_cases hlt : build < c.build
      · have hnone : lookup build (c :: cases) = none := by
          apply lookup_eq_none
          intro d hd
          rcases List.mem_cons.mp hd with heq | hmem
          · rw [heq]
            exact hlt
          · exact Nat.lt_trans hlt (h.1 d hmem)
        rw [if_pos hlt, lookup_cons, hnone]
        rfl
      · rw [if_neg hlt]
        by_cases heq : build = c.build
        · rw [if_pos heq, lookup_cons, lookup_cons, lookup_cons, if_pos heq.symm]
          by_cases hother : build = other
          · rw [if_pos hother, if_pos hother]
            rfl
          · rw [if_neg hother, if_neg hother, if_neg (by lia)]
        · rw [if_neg heq, lookup_cons, lookup_cons, lookup_cons, hrest,
            if_neg (Ne.symm heq)]
          by_cases hother : build = other
          · rw [if_pos hother, if_pos hother, if_neg (by lia)]
          · rw [if_neg hother, if_neg hother]

theorem lookup_of_mem {cases : List Case} (h : cases.Pairwise fun a b => a.build < b.build)
    {c : Case} (hc : c ∈ cases) : lookup c.build cases = some c.statements := by
  induction cases with
  | nil => exact absurd hc List.not_mem_nil
  | cons d cases ih =>
      rw [List.pairwise_cons] at h
      rw [lookup_cons]
      rcases List.mem_cons.mp hc with heq | hmem
      · rw [if_pos (by rw [heq]), heq]
      · have hlt := h.1 c hmem
        rw [if_neg (by lia)]
        exact ih h.2 hmem

theorem mem_of_lookup {build : Nat} {cases : List Case} {statements : List String}
    (h : lookup build cases = some statements) : ⟨build, statements⟩ ∈ cases := by
  rcases Option.map_eq_some_iff.mp h with ⟨c, hfind, hstatements⟩
  have hbuild : c.build = build := by simpa using List.find?_some hfind
  have hmem := List.mem_of_find?_eq_some hfind
  rw [← hbuild, ← hstatements]
  exact hmem

end Case

namespace BuildCases

/-- The statements of a build, if it has a case. -/
def statements? (x : BuildCases) (build : Nat) : Option (List String) :=
  Case.lookup build x.cases

theorem statements?_push (x : BuildCases) (build other : Nat) (statement : String) :
    (x.push build statement).statements? other =
      if build = other then some ((x.statements? build).getD [] ++ [statement])
      else x.statements? other :=
  Case.lookup_addTo build other statement x.ascending

theorem statements?_eq_none {x : BuildCases} {build : Nat} :
    x.statements? build = none ↔ x.contains build = false := by
  unfold statements? Case.lookup contains
  rw [Option.map_eq_none_iff, List.find?_eq_none, List.any_eq_false]

theorem mem_cases_iff {x : BuildCases} {c : Case} :
    c ∈ x.cases ↔ x.statements? c.build = some c.statements := by
  constructor
  · intro h
    exact Case.lookup_of_mem x.ascending h
  · intro h
    exact Case.mem_of_lookup h

theorem mem_builds_iff {x : BuildCases} {n : Nat} :
    n ∈ x.cases.map Case.build ↔ ∃ statements, x.statements? n = some statements := by
  constructor
  · intro h
    rcases List.mem_map.mp h with ⟨c, hc, rfl⟩
    exact ⟨c.statements, mem_cases_iff.mp hc⟩
  · intro h
    rcases h with ⟨statements, hstatements⟩
    exact List.mem_map.mpr ⟨⟨n, statements⟩, mem_cases_iff.mpr hstatements, rfl⟩

theorem contains_iff {x : BuildCases} {n : Nat} :
    x.contains n = true ↔ n ∈ x.cases.map Case.build := by
  unfold contains
  rw [List.any_eq_true, List.mem_map]
  simp only [beq_iff_eq]

theorem contains_push {x : BuildCases} {build n : Nat} (h : build ≠ n) (statement : String) :
    (x.push build statement).contains n = x.contains n := by
  rw [Bool.eq_iff_iff, contains_iff, contains_iff, mem_builds_iff, mem_builds_iff,
    statements?_push, if_neg h]

/-- Cases in ascending order are determined by what is looked up in them. -/
theorem cases_eq_of_statements? {x y : BuildCases}
    (h : ∀ build statements,
      x.statements? build = some statements ↔ y.statements? build = some statements) :
    x.cases = y.cases := by
  have hnodup : ∀ z : BuildCases, z.cases.Nodup := by
    intro z
    apply z.ascending.imp
    intro c d hlt heq
    rw [heq] at hlt
    exact Nat.lt_irrefl _ hlt
  have hperm : x.cases.Perm y.cases := by
    rw [List.perm_ext_iff_of_nodup (hnodup x) (hnodup y)]
    intro c
    rw [mem_cases_iff, mem_cases_iff, h]
  apply hperm.eq_of_pairwise _ x.ascending y.ascending
  intro c d _ _ hlt hgt
  exact absurd hgt (Nat.lt_asymm hlt)

/-- Placeholders are added to builds without a case, and change nothing else. -/
theorem statements?_placeholders {builds : List Nat} {statement : String}
    {x y : BuildCases}
    (h : builds.foldlM (fun x build => x.insertPlaceholder build statement) x = .ok y)
    (build : Nat) (statements : List String) :
    y.statements? build = some statements ↔
      x.statements? build = some statements ∨ build ∈ builds ∧ statements = [statement] := by
  induction builds generalizing x with
  | nil =>
      cases h
      simp
  | cons first builds ih =>
      rw [List.foldlM_cons, Outcome.bind_eq_ok] at h
      rcases h with ⟨z, hz, hrest⟩
      unfold insertPlaceholder at hz
      split at hz
      · cases hz
      · rename_i hcontains
        cases hz
        have hnone := statements?_eq_none.mpr (Bool.eq_false_iff.mpr hcontains)
        rw [ih hrest, statements?_push, hnone]
        by_cases heq : first = build
        · rw [if_pos heq, ← heq, hnone]
          simp [eq_comm]
        · rw [if_neg heq, List.mem_cons]
          simp [Ne.symm heq]

/-- Placeholders can be added if none of their builds has a case. -/
theorem exists_placeholders_iff {builds : List Nat} (hnodup : builds.Nodup)
    {statement : String} {x : BuildCases} :
    (∃ y, builds.foldlM (fun x build => x.insertPlaceholder build statement) x = .ok y) ↔
      ∀ build ∈ builds, x.statements? build = none := by
  induction builds generalizing x with
  | nil =>
      constructor
      · intro _ build hbuild
        exact absurd hbuild List.not_mem_nil
      · intro _
        exact ⟨x, rfl⟩
  | cons first builds ih =>
      rw [List.nodup_cons] at hnodup
      rw [List.forall_mem_cons, List.foldlM_cons, statements?_eq_none]
      unfold insertPlaceholder
      by_cases hcontains : x.contains first = true
      · rw [if_pos hcontains, hcontains]
        constructor
        · intro h
          rcases h with ⟨y, hy⟩
          cases hy
        · intro h
          cases h.1
      · rw [if_neg hcontains]
        apply (ih hnodup.2).trans
        rw [Bool.eq_false_iff.mpr hcontains, eq_self, true_and]
        apply forall₂_congr
        intro build hbuild
        have hother : first ≠ build := by
          intro heq
          rw [heq] at hnodup
          exact hnodup.1 hbuild
        rw [statements?_push, if_neg hother]

/-- The error of placeholders is about the first of their builds that has a case. -/
theorem placeholders_eq_error_iff {builds : List Nat} (hnodup : builds.Nodup)
    {statement : String} {x : BuildCases} {e : Error} :
    builds.foldlM (fun x build => x.insertPlaceholder build statement) x = .error e ↔
      ∃ n, builds.find? x.contains = some n ∧
        e = .precondition (.caseExists x.bitness n) := by
  induction builds generalizing x with
  | nil =>
      constructor
      · intro h
        cases h
      · intro h
        rcases h with ⟨n, hn, _⟩
        cases hn
  | cons first builds ih =>
      rw [List.nodup_cons] at hnodup
      rw [List.foldlM_cons]
      unfold insertPlaceholder
      by_cases hcontains : x.contains first = true
      · rw [if_pos hcontains, List.find?_cons_of_pos hcontains]
        constructor
        · intro h
          cases h
          exact ⟨first, rfl, rfl⟩
        · intro h
          rcases h with ⟨n, hn, rfl⟩
          cases hn
          rfl
      · have hothers : builds.find? (x.push first statement).contains =
            builds.find? x.contains := by
          apply List.find?_congr
          intro n hn
          apply contains_push
          intro heq
          rw [heq] at hnodup
          exact hnodup.1 hn
        rw [if_neg hcontains, List.find?_cons_of_neg hcontains, ← hothers]
        exact ih hnodup.2

end BuildCases
end JumpHooks
