import JumpHooks.Proofs.Patch.Statements

/-!
# Branches

The branches hold the builds of all cases, each in one place, and the statements of a branch
agree but for blanks with the statements of every build in it.
-/

namespace JumpHooks

/-!
# Builds in one place
-/

/-- In branches without a repeated build, a build stands in one branch, and there once. -/
theorem Branch.exists_only {branches : List Branch} {build : Nat}
    (hnodup : (branches.flatMap Branch.builds).Nodup)
    (hmem : build ∈ branches.flatMap Branch.builds) :
    ∃ b ∈ branches, (branches.filter fun b => build ∈ b.builds) = [b] ∧
      b.builds.count build = 1 := by
  induction branches with
  | nil => exact absurd hmem List.not_mem_nil
  | cons b branches ih =>
      rw [List.flatMap_cons] at hnodup hmem
      rcases List.nodup_append.mp hnodup with ⟨hfirst, hrest, hapart⟩
      rcases List.mem_append.mp hmem with hbuild | hbuild
      · have hothers : (branches.filter fun b => build ∈ b.builds) = [] := by
          rw [List.filter_eq_nil_iff]
          intro c hc hmem'
          have hc' : build ∈ branches.flatMap Branch.builds :=
            List.mem_flatMap.mpr ⟨c, hc, by simpa using hmem'⟩
          exact hapart build hbuild build hc' rfl
        refine ⟨b, List.mem_cons_self, ?_, hfirst.count.trans (if_pos hbuild)⟩
        rw [List.filter_cons_of_pos (by simpa using hbuild), hothers]
      · have hnot : build ∉ b.builds := by
          intro hb
          exact hapart build hb build hbuild rfl
        rcases ih hrest hbuild with ⟨c, hc, hfilter, hcount⟩
        refine ⟨c, List.mem_cons_of_mem _ hc, ?_, hcount⟩
        rw [List.filter_cons_of_neg (by simpa using hnot)]
        exact hfilter

namespace BuildCases

/-!
# Merging
-/

theorem branchesFrom_builds (shared : Branch) (cases : List Case) :
    (branchesFrom shared cases).flatMap Branch.builds =
      shared.builds ++ cases.map Case.build := by
  induction cases generalizing shared with
  | nil => simp [branchesFrom]
  | cons c cases ih =>
      unfold branchesFrom
      split
      · rw [ih]
        simp
      · rw [List.flatMap_cons, ih]
        simp

theorem branches_builds (x : BuildCases) :
    x.branches.flatMap Branch.builds = x.cases.map Case.build := by
  unfold branches
  cases x.cases with
  | nil => rfl
  | cons c cases => exact branchesFrom_builds ⟨[c.build], c.statements⟩ cases

/-- The statements of a branch agree with those that `f` knows for its builds. -/
def Agrees (f : Nat → Option (List String)) (b : Branch) : Prop :=
  ∀ build ∈ b.builds, ∃ statements, f build = some statements ∧
    sameStatements b.statements statements = true

theorem sameStatements_refl (statements : List String) :
    sameStatements statements statements = true :=
  beq_self_eq_true _

theorem exists_of_sameStatements {statements : List String} {own : String}
    (h : sameStatements statements [own] = true) :
    ∃ statement, statements = [statement] ∧ Text.words statement = Text.words own := by
  have hwords : statements.map Text.words = [Text.words own] := eq_of_beq h
  rcases List.map_eq_singleton_iff.mp hwords with ⟨statement, hstatement, heq⟩
  exact ⟨statement, hstatement, heq⟩

theorem branchesFrom_agree {f : Nat → Option (List String)} {shared : Branch}
    {cases : List Case} (hshared : Agrees f shared)
    (hcases : ∀ c ∈ cases, f c.build = some c.statements) :
    ∀ b ∈ branchesFrom shared cases, Agrees f b := by
  -- On the cases, for every branch that is still open.
  induction cases generalizing shared with
  | nil =>
      intro b hb
      rw [List.mem_singleton.mp hb]
      exact hshared
  | cons c cases ih =>
      have hc := hcases c List.mem_cons_self
      have hrest : ∀ d ∈ cases, f d.build = some d.statements := by
        intro d hd
        exact hcases d (List.mem_cons_of_mem _ hd)
      unfold branchesFrom
      split
      · rename_i hsame
        refine ih ?_ hrest
        intro build hbuild
        rcases List.mem_append.mp hbuild with hold | hnew
        · exact hshared build hold
        · rw [List.mem_singleton.mp hnew]
          exact ⟨c.statements, hc, hsame⟩
      · intro b hb
        rcases List.mem_cons.mp hb with heq | hmem
        · rw [heq]
          exact hshared
        · refine ih ?_ hrest b hmem
          intro build hbuild
          rw [List.mem_singleton.mp hbuild]
          exact ⟨c.statements, hc, sameStatements_refl _⟩

theorem branches_agree (x : BuildCases) : ∀ b ∈ x.branches, Agrees x.statements? b := by
  have hcases : ∀ c ∈ x.cases, x.statements? c.build = some c.statements := by
    intro c hc
    exact Case.lookup_of_mem x.ascending hc
  unfold branches
  cases hx : x.cases with
  | nil =>
      intro b hb
      exact absurd hb List.not_mem_nil
  | cons c cases =>
      rw [hx] at hcases
      refine branchesFrom_agree ?_ fun d hd => hcases d (List.mem_cons_of_mem _ hd)
      intro build hbuild
      rw [List.mem_singleton.mp hbuild]
      exact ⟨c.statements, hcases c List.mem_cons_self, sameStatements_refl _⟩

theorem builds_nodup (x : BuildCases) : (x.cases.map Case.build).Nodup := by
  show (x.cases.map Case.build).Pairwise (· ≠ ·)
  rw [List.pairwise_map]
  exact x.ascending.imp fun h => Nat.ne_of_lt h

/-- A branch has a build, and the very statements of one of the cases. -/
theorem branchesFrom_verbatim {shared : Branch} {cases all : List Case}
    (hbuilds : shared.builds ≠ []) (hshared : ∃ c ∈ all, shared.statements = c.statements)
    (hcases : ∀ c ∈ cases, c ∈ all) :
    ∀ b ∈ branchesFrom shared cases,
      b.builds ≠ [] ∧ ∃ c ∈ all, b.statements = c.statements := by
  induction cases generalizing shared with
  | nil =>
      intro b hb
      rw [List.mem_singleton.mp hb]
      exact ⟨hbuilds, hshared⟩
  | cons c cases ih =>
      have hrest : ∀ d ∈ cases, d ∈ all := by
        intro d hd
        exact hcases d (List.mem_cons_of_mem _ hd)
      unfold branchesFrom
      split
      · exact ih (by simp) hshared hrest
      · intro b hb
        rcases List.mem_cons.mp hb with heq | hmem
        · rw [heq]
          exact ⟨hbuilds, hshared⟩
        · exact ih (by simp) ⟨c, hcases c List.mem_cons_self, rfl⟩ hrest b hmem

theorem branches_verbatim (x : BuildCases) :
    ∀ b ∈ x.branches, b.builds ≠ [] ∧ ∃ c ∈ x.cases, b.statements = c.statements := by
  unfold branches
  cases hx : x.cases with
  | nil =>
      intro b hb
      exact absurd hb List.not_mem_nil
  | cons c cases =>
      exact branchesFrom_verbatim (by simp) ⟨c, List.mem_cons_self, rfl⟩
        fun d hd => List.mem_cons_of_mem _ hd

theorem branches_nodup (x : BuildCases) : (x.branches.flatMap Branch.builds).Nodup := by
  rw [branches_builds]
  exact x.builds_nodup

/-- A build with statements stands in one branch, once, and the statements of the branch are
its own but for blanks. -/
theorem exists_only_branch {x : BuildCases} {build : Nat} {statements : List String}
    (h : x.statements? build = some statements) :
    ∃ b ∈ x.branches, (x.branches.filter fun b => build ∈ b.builds) = [b] ∧
      b.builds.count build = 1 ∧ sameStatements b.statements statements = true := by
  have hmem : build ∈ x.branches.flatMap Branch.builds := by
    rw [branches_builds]
    exact List.mem_map.mpr ⟨_, Case.mem_of_lookup h, rfl⟩
  have hnodup : (x.branches.flatMap Branch.builds).Nodup := by
    rw [branches_builds]
    exact x.builds_nodup
  rcases Branch.exists_only hnodup hmem with ⟨b, hb, honly, hcount⟩
  have hbuild : build ∈ b.builds := List.count_pos_iff.mp (by lia)
  rcases x.branches_agree b hb build hbuild with ⟨own, hown, hsame⟩
  rw [h] at hown
  cases hown
  exact ⟨b, hb, honly, hcount, hsame⟩

end BuildCases
end JumpHooks
