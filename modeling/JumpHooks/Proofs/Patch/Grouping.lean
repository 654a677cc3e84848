import JumpHooks.Proofs.Patch.Branches
import Mathlib.Data.List.Sort
import Mathlib.Data.List.SplitBy

/-!
# Grouping

The cases of an instruction set depend only on the statements that each build receives. Their
branches are the longest runs of neighbouring builds whose statements agree but for blanks: any
other way of grouping the builds only cuts these runs into smaller ones.
-/

namespace JumpHooks
namespace BuildCases

/-!
# Operations
-/

/-- One change of the cases. -/
inductive Operation where
  | push (build : Nat) (statement : String)
  | placeholder (build : Nat) (statement : String)
deriving DecidableEq, Repr

namespace Operation

def build : Operation → Nat
  | push n _ => n
  | placeholder n _ => n

/-- The statements of the operation's build after it; a build that has some refuses a
placeholder. -/
def extend (own : List String) : Operation → List String
  | push _ statement => own ++ [statement]
  | placeholder _ statement => if own = [] then [statement] else own

theorem extend_ne_nil (o : Operation) (own : List String) : o.extend own ≠ [] := by
  cases o with
  | push n statement => simp [extend]
  | placeholder n statement =>
      unfold extend
      by_cases hown : own = []
      · simp [hown]
      · simp [hown]

end Operation

/-- The cases after an operation, which may be refused. -/
def apply (x : BuildCases) : Operation → BuildCases
  | .push build statement => x.push build statement
  | .placeholder build statement =>
      match x.insertPlaceholder build statement with
      | .error _ => x
      | .ok y => y

theorem apply_placeholder (x : BuildCases) (build : Nat) (statement : String) :
    x.apply (.placeholder build statement) =
      if x.contains build then x else x.push build statement := by
  unfold apply insertPlaceholder
  by_cases hcontains : x.contains build = true
  · simp only [hcontains, if_true]
  · simp only [hcontains, if_false, Bool.false_eq_true]

def run (b : Bitness) (ops : List Operation) : BuildCases :=
  ops.foldl apply (empty b)

theorem run_append_singleton (b : Bitness) (ops : List Operation) (o : Operation) :
    run b (ops ++ [o]) = (run b ops).apply o :=
  List.foldl_append

/-- What a build receives from the operations, in their order. -/
def received (build : Nat) (ops : List Operation) : List String :=
  (ops.filter fun o => o.build = build).foldl Operation.extend []

theorem received_append_singleton (build : Nat) (ops : List Operation) (o : Operation) :
    received build (ops ++ [o]) =
      if o.build = build then o.extend (received build ops) else received build ops := by
  unfold received
  rw [List.filter_append, List.foldl_append]
  by_cases hbuild : o.build = build
  · rw [if_pos hbuild, List.filter_cons_of_pos (by simpa using hbuild)]
    rfl
  · rw [if_neg hbuild, List.filter_cons_of_neg (by simpa using hbuild)]
    rfl

theorem received_ne_nil_iff {build : Nat} {ops : List Operation} :
    received build ops ≠ [] ↔ ∃ o ∈ ops, o.build = build := by
  induction ops using List.reverseRecOn with
  | nil => simp [received]
  | append_singleton ops o ih =>
      rw [received_append_singleton]
      by_cases hbuild : o.build = build
      · rw [if_pos hbuild]
        exact iff_of_true (o.extend_ne_nil _) ⟨o, by simp, hbuild⟩
      · rw [if_neg hbuild, ih]
        simp [or_and_right, exists_or, hbuild]

theorem statements?_apply {x : BuildCases} (o : Operation) {build : Nat} {own : List String}
    (hx : x.statements? build = if own = [] then none else some own) :
    (x.apply o).statements? build =
      if o.build = build then some (o.extend own) else x.statements? build := by
  cases o with
  | push n statement =>
      have hown : (x.statements? build).getD [] = own := by
        rw [hx]
        split
        · rename_i hnil
          exact hnil.symm
        · rfl
      show (x.push n statement).statements? build = _
      rw [statements?_push]
      by_cases hbuild : n = build
      · rw [if_pos hbuild, hbuild, hown]
        exact (if_pos rfl).symm
      · rw [if_neg hbuild]
        exact (if_neg hbuild).symm
  | placeholder n statement =>
      rw [apply_placeholder]
      by_cases hbuild : n = build
      · subst hbuild
        by_cases hown : own = []
        · rw [if_pos hown, statements?_eq_none] at hx
          simp [hx, hown, statements?_push, statements?_eq_none.mpr hx, Operation.build,
            Operation.extend]
        · rw [if_neg hown] at hx
          have hcontains : x.contains n = true := contains_iff.mpr (mem_builds_iff.mpr ⟨own, hx⟩)
          simp [hcontains, hown, hx, Operation.build, Operation.extend]
      · by_cases hcontains : x.contains n = true
        · simp [hcontains, hbuild, Operation.build]
        · simp [hcontains, hbuild, statements?_push, Operation.build]

/-- A build has the statements that it received, and a case if there are any. -/
theorem statements?_run (b : Bitness) (ops : List Operation) (build : Nat) :
    (run b ops).statements? build =
      if received build ops = [] then none else some (received build ops) := by
  induction ops using List.reverseRecOn with
  | nil => rfl
  | append_singleton ops o ih =>
      rw [run_append_singleton, statements?_apply o ih, received_append_singleton]
      by_cases hbuild : o.build = build
      · rw [if_pos hbuild, if_pos hbuild, if_neg (o.extend_ne_nil _)]
      · rw [if_neg hbuild, if_neg hbuild, ih]

theorem bitness_run (b : Bitness) (ops : List Operation) : (run b ops).bitness = b := by
  induction ops using List.reverseRecOn with
  | nil => rfl
  | append_singleton ops o ih =>
      rw [run_append_singleton]
      cases o with
      | push n statement => exact ih
      | placeholder n statement =>
          rw [apply_placeholder]
          split
          · exact ih
          · exact ih

/-- Operations that leave each build the same statements leave the same cases. -/
theorem run_congr (b : Bitness) {ops others : List Operation}
    (h : ∀ build, received build others = received build ops) : run b others = run b ops := by
  have hcases : (run b others).cases = (run b ops).cases := by
    apply cases_eq_of_statements?
    intro build statements
    rw [statements?_run, statements?_run, h]
  have hbitness := (bitness_run b others).trans (bitness_run b ops).symm
  cases hx : run b others with
  | mk bitness cases ascending =>
      cases hy : run b ops with
      | mk bitness' cases' ascending' =>
          rw [hx, hy] at hcases hbitness
          cases hcases
          cases hbitness
          rfl

/-- Operations on different builds can change places. -/
theorem received_swap {o p : Operation} (h : o.build ≠ p.build) (before later : List Operation)
    (build : Nat) :
    received build (before ++ p :: o :: later) = received build (before ++ o :: p :: later) := by
  unfold received
  rw [List.filter_append, List.filter_append]
  by_cases ho : o.build = build
  · have hp : p.build ≠ build := fun hp => h (ho.trans hp.symm)
    simp [ho, hp]
  · simp [List.filter_cons, ho]

end BuildCases

/-!
# Runs of neighbours
-/

section Pieces

variable {α : Type} {r : α → α → Bool}

/-- Related neighbours do not go on behind a cut. -/
theorem eq_nil_of_cut {before own more after : List α} {pieces : List (List α)}
    (hcuts : ((before ++ own) :: pieces).IsChain fun a b =>
      ∃ ha hb, r (a.getLast ha) (b.head hb) = false)
    (hown : own ≠ []) (hitems : (own ++ more).IsChain fun x y => r x y = true)
    (h : pieces.flatten = more ++ after) : more = [] := by
  by_contra hmore
  cases pieces with
  | nil =>
      rw [List.flatten_nil, eq_comm, List.append_eq_nil_iff] at h
      exact hmore h.1
  | cons next others =>
      rcases (List.isChain_cons_cons.mp hcuts).1 with ⟨ha, hnext, hcut⟩
      have hlast : (before ++ own).getLast ha ∈ own.getLast? := by
        rw [← List.getLast?_append_of_ne_nil before hown]
        exact List.getLast?_eq_some_getLast ha
      have hhead : next.head hnext ∈ more.head? := by
        rw [← List.head?_append_of_ne_nil more hmore, ← h, List.flatten_cons,
          List.head?_append_of_ne_nil next hnext]
        exact List.head?_eq_some_head hnext
      have hjoined := (List.isChain_append.mp hitems).2.2 _ hlast _ hhead
      rw [hcut] at hjoined
      cases hjoined

/-- Related neighbours lie in one of the pieces that a list is cut into. -/
theorem exists_infix_of_flatten {before items after : List α} {pieces : List (List α)}
    (hcuts : pieces.IsChain fun a b => ∃ ha hb, r (a.getLast ha) (b.head hb) = false)
    (hne : items ≠ []) (hitems : items.IsChain fun x y => r x y = true)
    (h : pieces.flatten = before ++ (items ++ after)) : ∃ piece ∈ pieces, items <:+: piece := by
  induction pieces generalizing before with
  | nil =>
      rw [List.flatten_nil, eq_comm, List.append_eq_nil_iff, List.append_eq_nil_iff] at h
      exact absurd h.2.1 hne
  | cons piece pieces ih =>
      have hlater : ∀ skipped, pieces.flatten = skipped ++ (items ++ after) →
          ∃ other ∈ piece :: pieces, items <:+: other := by
        intro skipped heq
        rcases ih hcuts.tail heq with ⟨other, hother, hwithin⟩
        exact ⟨other, List.mem_cons_of_mem _ hother, hwithin⟩
      rw [List.flatten_cons] at h
      -- The items begin behind the first piece, or in it; then they also end there.
      rcases List.append_eq_append_iff.mp h with ⟨skipped, _, hrest⟩ | ⟨own, hpiece, hrest⟩
      · exact hlater skipped hrest
      · rcases List.append_eq_append_iff.mp hrest with ⟨rest, hown, _⟩ | ⟨more, hown, hflat⟩
        · refine ⟨piece, List.mem_cons_self, before, rest, ?_⟩
          rw [hpiece, hown, List.append_assoc]
        · by_cases hnil : own = []
          · apply hlater []
            rw [hflat, hown, hnil]
            rfl
          · rw [hpiece] at hcuts
            rw [hown] at hitems
            have hmore := eq_nil_of_cut hcuts hnil hitems hflat
            refine ⟨piece, List.mem_cons_self, before, [], ?_⟩
            rw [hpiece, hown, hmore, List.append_nil, List.append_nil]

end Pieces

namespace BuildCases

/-!
# Statements that agree
-/

/-- The statements agree one by one but for blanks. -/
def Alike (own others : List String) : Prop :=
  List.Forall₂ (fun s t => Text.words s = Text.words t) own others

theorem alike_iff {own others : List String} :
    Alike own others ↔ own.map Text.words = others.map Text.words := by
  have hwords : List.Forall₂ (· = ·) (own.map Text.words) (others.map Text.words) ↔
      own.map Text.words = others.map Text.words := by
    rw [List.forall₂_eq_eq_eq]
  rw [← hwords, List.forall₂_map_left_iff, List.forall₂_map_right_iff]
  rfl

theorem Alike.refl (own : List String) : Alike own own :=
  alike_iff.mpr rfl

theorem Alike.symm {own others : List String} (h : Alike own others) : Alike others own :=
  alike_iff.mpr (alike_iff.mp h).symm

theorem Alike.trans {xs ys zs : List String} (h : Alike xs ys) (h' : Alike ys zs) : Alike xs zs :=
  alike_iff.mpr ((alike_iff.mp h).trans (alike_iff.mp h'))

/-- The cases can share a branch. -/
def joins (c d : Case) : Bool :=
  sameStatements c.statements d.statements

theorem joins_iff {c d : Case} : joins c d = true ↔ Alike c.statements d.statements := by
  unfold joins sameStatements
  rw [beq_iff_eq, alike_iff]

theorem isChain_joins {own : List String} {cases : List Case}
    (h : ∀ c ∈ cases, Alike own c.statements) : cases.IsChain fun c d => joins c d = true := by
  have hall : cases.Pairwise fun c d => joins c d = true := by
    apply List.pairwise_of_forall_mem_list
    intro c hc d hd
    exact joins_iff.mpr ((h c hc).symm.trans (h d hd))
  exact hall.isChain

end BuildCases

/-- The branch that cases share. -/
def Branch.ofCases (cases : List Case) : Branch where
  builds := cases.map Case.build
  statements := (cases.head?.map Case.statements).getD []

namespace BuildCases

/-!
# Branches as longest runs
-/

/-- An open branch takes builds as long as neighbours agree, although each build is held against
the first one of the branch. -/
theorem branchesFrom_ofCases {c : Case} {shared : List Case}
    (hshared : ∀ d ∈ c :: shared, Alike c.statements d.statements) (cases : List Case) :
    branchesFrom (Branch.ofCases (c :: shared)) cases =
      (((c :: shared) ++ cases).splitBy joins).map Branch.ofCases := by
  induction cases generalizing c shared with
  | nil =>
      rw [List.append_nil, List.splitBy_of_isChain (List.cons_ne_nil _ _) (isChain_joins hshared)]
      rfl
  | cons d cases ih =>
      have hsame : sameStatements (Branch.ofCases (c :: shared)).statements d.statements = true ↔
          Alike c.statements d.statements := joins_iff
      unfold branchesFrom
      by_cases hd : Alike c.statements d.statements
      · have hlonger : ∀ e ∈ c :: (shared ++ [d]), Alike c.statements e.statements := by
          intro e he
          rw [← List.cons_append] at he
          rcases List.mem_append.mp he with hold | hlast
          · exact hshared e hold
          · rw [List.mem_singleton.mp hlast]
            exact hd
        have hopen : Branch.ofCases (c :: (shared ++ [d])) =
            ⟨(Branch.ofCases (c :: shared)).builds ++ [d.build],
              (Branch.ofCases (c :: shared)).statements⟩ := by
          simp [Branch.ofCases]
        rw [if_pos (hsame.mpr hd), ← hopen, ih hlonger]
        simp
      · have hcut : ∀ e ∈ (c :: shared).getLast?, joins e d = false := by
          intro e he
          rw [Bool.eq_false_iff]
          intro hjoins
          exact hd ((hshared e (List.mem_of_getLast? he)).trans (joins_iff.mp hjoins))
        have hfirst : ∀ e ∈ [d], Alike d.statements e.statements := by
          intro e he
          rw [List.mem_singleton.mp he]
          exact Alike.refl _
        have hrest := ih hfirst
        rw [if_neg (mt hsame.mp hd), List.splitBy_append_cons cases hcut,
          List.splitBy_of_isChain (List.cons_ne_nil _ _) (isChain_joins hshared)]
        rw [List.singleton_append] at hrest
        rw [List.singleton_append, List.map_cons, ← hrest]
        rfl

theorem branches_eq_map (x : BuildCases) :
    x.branches = (x.cases.splitBy joins).map Branch.ofCases := by
  unfold branches
  cases x.cases with
  | nil => rfl
  | cons c cases =>
      have hfirst : ∀ d ∈ [c], Alike c.statements d.statements := by
        intro d hd
        rw [List.mem_singleton.mp hd]
        exact Alike.refl _
      exact branchesFrom_ofCases hfirst cases

/-!
# Groupings of the builds
-/

/-- The branches have every build of the operations once, in ascending order. A branch has the
very statements of its smallest build, and those of its other builds agree with them but for
blanks. -/
structure Groups (ops : List Operation) (branches : List Branch) : Prop where
  ascending : (branches.flatMap Branch.builds).Pairwise (· < ·)
  present : ∀ n, n ∈ branches.flatMap Branch.builds ↔ ∃ o ∈ ops, o.build = n
  verbatim : ∀ b ∈ branches, ∃ first ∈ b.builds, (∀ n ∈ b.builds, first ≤ n) ∧
    b.statements = received first ops
  alike : ∀ b ∈ branches, ∀ n ∈ b.builds, Alike b.statements (received n ops)

/-- No branch can be joined with the one behind it. -/
def Apart (branches : List Branch) : Prop :=
  branches.IsChain fun b c => ¬ Alike b.statements c.statements

/-- The case that the operations make for a build. -/
def ownCase (ops : List Operation) (build : Nat) : Case :=
  ⟨build, received build ops⟩

theorem ownCase_of_mem {b : Bitness} {ops : List Operation} {c : Case}
    (hc : c ∈ (run b ops).cases) : ownCase ops c.build = c ∧ received c.build ops ≠ [] := by
  have hstatements := mem_cases_iff.mp hc
  rw [statements?_run] at hstatements
  split at hstatements
  · cases hstatements
  · rename_i hreceived
    refine ⟨?_, hreceived⟩
    unfold ownCase
    rw [Option.some.inj hstatements]

theorem cases_run (b : Bitness) (ops : List Operation) :
    (run b ops).cases = ((run b ops).cases.map Case.build).map (ownCase ops) := by
  rw [List.map_map]
  conv_lhs => rw [← List.map_id (run b ops).cases]
  apply List.map_congr_left
  intro c hc
  exact (ownCase_of_mem hc).1.symm

theorem mem_builds_run {b : Bitness} {ops : List Operation} {n : Nat} :
    n ∈ (run b ops).cases.map Case.build ↔ ∃ o ∈ ops, o.build = n := by
  rw [← received_ne_nil_iff, mem_builds_iff, statements?_run]
  by_cases hnil : received n ops = []
  · simp [hnil]
  · simp [hnil]

theorem infix_builds {branches : List Branch} {branch : Branch} (h : branch ∈ branches) :
    branch.builds <:+: branches.flatMap Branch.builds := by
  rw [List.flatMap_def]
  exact List.infix_of_mem_flatten (List.mem_map_of_mem h)

/-- A branch is what the cases of some neighbouring builds share. -/
theorem exists_ofCases {x : BuildCases} {branch : Branch} (h : branch ∈ x.branches) :
    ∃ c cases, branch = Branch.ofCases (c :: cases) ∧ (c :: cases) <:+: x.cases := by
  rw [branches_eq_map] at h
  rcases List.mem_map.mp h with ⟨piece, hpiece, hbranch⟩
  have hwithin : piece <:+: x.cases := by
    rw [← List.flatten_splitBy joins x.cases]
    exact List.infix_of_mem_flatten hpiece
  cases piece with
  | nil => exact absurd hpiece (List.nil_notMem_splitBy joins x.cases)
  | cons c cases => exact ⟨c, cases, hbranch.symm, hwithin⟩

theorem groups_run (b : Bitness) (ops : List Operation) : Groups ops (run b ops).branches := by
  constructor
  · rw [branches_builds, List.pairwise_map]
    exact (run b ops).ascending
  · intro n
    rw [branches_builds, mem_builds_run]
  · intro branch hbranch
    rcases exists_ofCases hbranch with ⟨c, cases, rfl, hwithin⟩
    have hc := ownCase_of_mem (hwithin.subset List.mem_cons_self)
    have hascending := (run b ops).ascending.sublist hwithin.sublist
    rw [List.pairwise_cons] at hascending
    refine ⟨c.build, List.mem_cons_self, ?_, congrArg Case.statements hc.1.symm⟩
    intro n hn
    rcases List.mem_map.mp hn with ⟨d, hd, hbuild⟩
    rw [← hbuild]
    rcases List.mem_cons.mp hd with heq | hmem
    · rw [heq]
    · exact (hascending.1 d hmem).le
  · intro branch hbranch n hn
    rcases (run b ops).branches_agree branch hbranch n hn with ⟨own, hown, hsame⟩
    rw [statements?_run] at hown
    split at hown
    · cases hown
    · rw [Option.some.inj hown, alike_iff]
      exact eq_of_beq hsame

theorem apart_run (b : Bitness) (ops : List Operation) : Apart (run b ops).branches := by
  have hgroups := groups_run b ops
  unfold Apart
  rw [branches_eq_map] at hgroups ⊢
  rw [List.isChain_map]
  apply (List.isChain_getLast_head_splitBy joins (run b ops).cases).imp_of_mem_imp
  intro own next hown _ hcut halike
  rcases hcut with ⟨hne, hnext, hcut⟩
  have hlast : own.getLast hne ∈ (run b ops).cases := by
    rw [← List.flatten_splitBy joins (run b ops).cases]
    exact List.mem_flatten.mpr ⟨own, hown, List.getLast_mem hne⟩
  have hshared := hgroups.alike _ (List.mem_map_of_mem hown) _
    (List.mem_map_of_mem (List.getLast_mem hne))
  have hstatements : received (own.getLast hne).build ops = (own.getLast hne).statements :=
    congrArg Case.statements (ownCase_of_mem hlast).1
  have hhead : (Branch.ofCases next).statements = (next.head hnext).statements := by
    unfold Branch.ofCases
    rw [List.head?_eq_some_head hnext]
    rfl
  rw [hstatements] at hshared
  rw [hhead] at halike
  rw [joins_iff.mpr (hshared.symm.trans halike)] at hcut
  cases hcut

/-- Neighbouring builds with statements that agree stand in one branch. -/
theorem exists_branch_of_isChain {b : Bitness} {ops : List Operation} {builds : List Nat}
    (hne : builds ≠ []) (hbuilds : builds <:+: (run b ops).cases.map Case.build)
    (hchain : (builds.map (ownCase ops)).IsChain fun c d => joins c d = true) :
    ∃ branch ∈ (run b ops).branches, builds <:+: branch.builds := by
  rcases hbuilds with ⟨before, after, heq⟩
  have hflat : ((run b ops).cases.splitBy joins).flatten =
      before.map (ownCase ops) ++ (builds.map (ownCase ops) ++ after.map (ownCase ops)) := by
    rw [List.flatten_splitBy, cases_run, ← heq, List.map_append, List.map_append,
      List.append_assoc]
  have hcuts := List.isChain_getLast_head_splitBy joins (run b ops).cases
  rcases exists_infix_of_flatten hcuts (by simpa using hne) hchain hflat with
    ⟨piece, hpiece, hwithin⟩
  refine ⟨Branch.ofCases piece, ?_, ?_⟩
  · rw [branches_eq_map]
    exact List.mem_map_of_mem hpiece
  · have hown := hwithin.map Case.build
    rw [List.map_map] at hown
    show builds <:+: piece.map Case.build
    simpa [Function.comp_def, ownCase] using hown

namespace Groups

variable {b : Bitness} {ops : List Operation} {others : List Branch} {branch : Branch}

theorem builds_eq (h : Groups ops others) (b : Bitness) :
    (run b ops).cases.map Case.build = others.flatMap Branch.builds := by
  have hascending : ((run b ops).cases.map Case.build).Pairwise (· < ·) := by
    rw [List.pairwise_map]
    exact (run b ops).ascending
  apply hascending.eq_of_mem_iff h.ascending
  intro n
  rw [mem_builds_run, h.present]

theorem flatten_eq (h : Groups ops others) (b : Bitness) :
    (others.map fun branch => branch.builds.map (ownCase ops)).flatten = (run b ops).cases := by
  rw [cases_run, h.builds_eq, List.map_flatMap, List.flatMap_def]

theorem isChain (h : Groups ops others) (hbranch : branch ∈ others) :
    (branch.builds.map (ownCase ops)).IsChain fun c d => joins c d = true := by
  refine @isChain_joins branch.statements _ ?_
  intro c hc
  rcases List.mem_map.mp hc with ⟨n, hn, rfl⟩
  exact h.alike branch hbranch n hn

theorem exists_first (h : Groups ops others) (hbranch : branch ∈ others) :
    ∃ first rest, branch.builds = first :: rest ∧ branch.statements = received first ops := by
  rcases h.verbatim branch hbranch with ⟨least, hleast, hle, hstatements⟩
  cases hbuilds : branch.builds with
  | nil =>
      rw [hbuilds] at hleast
      exact absurd hleast List.not_mem_nil
  | cons first rest =>
      have hascending : (first :: rest).Pairwise (· < ·) := by
        rw [← hbuilds]
        exact h.ascending.sublist (infix_builds hbranch).sublist
      rw [hbuilds] at hleast hle
      have hfirst : least = first := by
        rcases List.mem_cons.mp hleast with heq | hmem
        · exact heq
        · have hlt := (List.pairwise_cons.mp hascending).1 least hmem
          exact absurd (hle first List.mem_cons_self) (Nat.not_le.mpr hlt)
      refine ⟨first, rest, rfl, ?_⟩
      rw [hstatements, hfirst]

theorem ofCases_eq (h : Groups ops others) (hbranch : branch ∈ others) :
    Branch.ofCases (branch.builds.map (ownCase ops)) = branch := by
  rcases h.exists_first hbranch with ⟨first, rest, hbuilds, hstatements⟩
  cases branch with
  | mk builds statements =>
      change builds = _ at hbuilds
      change statements = _ at hstatements
      rw [hbuilds, hstatements]
      simp [Branch.ofCases, ownCase, Function.comp_def]

/-- Every branch of a grouping lies in one of the branches of the cases. -/
theorem exists_within (h : Groups ops others) (b : Bitness) (hbranch : branch ∈ others) :
    ∃ own ∈ (run b ops).branches, branch.builds <:+: own.builds := by
  rcases h.exists_first hbranch with ⟨first, rest, hbuilds, _⟩
  apply exists_branch_of_isChain
  · rw [hbuilds]
    exact List.cons_ne_nil first rest
  · rw [h.builds_eq]
    exact infix_builds hbranch
  · exact h.isChain hbranch

/-- A grouping that leaves no neighbours to join is the one that the cases have. -/
theorem eq_branches (h : Groups ops others) (hapart : Apart others) (b : Bitness) :
    others = (run b ops).branches := by
  have hsplit : (run b ops).cases.splitBy joins =
      others.map fun branch => branch.builds.map (ownCase ops) := by
    rw [List.splitBy_eq_iff]
    refine ⟨(h.flatten_eq b).symm, ?_, ?_, ?_⟩
    · intro hnil
      rcases List.mem_map.mp hnil with ⟨branch, hbranch, hempty⟩
      rcases h.exists_first hbranch with ⟨first, rest, hbuilds, _⟩
      rw [hbuilds] at hempty
      cases hempty
    · intro piece hpiece
      rcases List.mem_map.mp hpiece with ⟨branch, hbranch, rfl⟩
      exact h.isChain hbranch
    · rw [List.isChain_map]
      apply hapart.imp_of_mem_imp
      intro own next hown hnext hdiffer
      rcases h.exists_first hown with ⟨first, rest, hbuilds, _⟩
      rcases h.exists_first hnext with ⟨first', rest', hbuilds', hstatements'⟩
      refine ⟨by simp [hbuilds], by simp [hbuilds'], ?_⟩
      rw [Bool.eq_false_iff]
      intro hjoins
      rw [List.getLast_map, List.head_map, joins_iff] at hjoins
      have hlast := h.alike own hown _ (List.getLast_mem (by simp [hbuilds]))
      apply hdiffer
      apply hlast.trans
      rw [hstatements']
      simpa [hbuilds', ownCase] using hjoins
  rw [branches_eq_map, hsplit, List.map_map]
  conv_lhs => rw [← List.map_id others]
  apply List.map_congr_left
  intro branch hbranch
  exact (h.ofCases_eq hbranch).symm

end Groups

/-- The branches are the coarsest way of grouping the builds, and no other one leaves no
neighbours to join: neighbours share a branch exactly if their statements agree but for blanks.
What each build receives decides everything, so operations on different builds can change
places. -/
theorem branches_coarsest (b : Bitness) (ops : List Operation) :
    Groups ops (run b ops).branches ∧ Apart (run b ops).branches ∧
    (∀ before m n after,
      (run b ops).branches.flatMap Branch.builds = before ++ m :: n :: after →
        ((∃ branch ∈ (run b ops).branches, m ∈ branch.builds ∧ n ∈ branch.builds) ↔
          Alike (received m ops) (received n ops))) ∧
    (∀ others, Groups ops others →
      (∀ branch ∈ others, ∃ own ∈ (run b ops).branches, branch.builds <:+: own.builds) ∧
        (Apart others → others = (run b ops).branches)) ∧
    (∀ others, (∀ n, received n others = received n ops) → run b others = run b ops) ∧
    ∀ before o p later, ops = before ++ o :: p :: later → o.build ≠ p.build →
      run b (before ++ p :: o :: later) = run b ops := by
  have hgroups := groups_run b ops
  refine ⟨hgroups, apart_run b ops, ?_, ?_, fun others => run_congr b, ?_⟩
  · intro before m n after hbuilds
    constructor
    · intro h
      rcases h with ⟨branch, hbranch, hm, hn⟩
      exact (hgroups.alike branch hbranch m hm).symm.trans (hgroups.alike branch hbranch n hn)
    · intro h
      have hwithin : [m, n] <:+: (run b ops).cases.map Case.build := by
        rw [← branches_builds, hbuilds]
        exact ⟨before, after, by simp⟩
      have hchain : ([m, n].map (ownCase ops)).IsChain fun c d => joins c d = true := by
        simpa using joins_iff.mpr h
      rcases exists_branch_of_isChain (List.cons_ne_nil _ _) hwithin hchain with
        ⟨branch, hbranch, hboth⟩
      exact ⟨branch, hbranch, hboth.subset (by simp), hboth.subset (by simp)⟩
  · intro others hothers
    refine ⟨?_, fun hapart => hothers.eq_branches hapart b⟩
    intro branch hbranch
    exact hothers.exists_within b hbranch
  · intro before o p later hops hne
    apply run_congr
    intro n
    rw [hops, received_swap hne]

/-- Builds out of order, a placeholder that is refused, and one that agrees with the build behind
it. -/
def mixedOperations : List Operation :=
  [.push 711 "FillMem(p, 0x10,  &code);", .push 687 "// none",
    .placeholder 710 " FillMem(p, 0x10, &code);", .placeholder 687 "// late", .push 712 "// none"]

def mixedBranches : List Branch :=
  [⟨[687], ["// none"]⟩, ⟨[710, 711], [" FillMem(p, 0x10, &code);"]⟩, ⟨[712], ["// none"]⟩]

theorem branches_coarsest_mixed :
    Groups mixedOperations mixedBranches ∧ Apart mixedBranches ∧
      mixedBranches = (run .x86 mixedOperations).branches ∧
        run .x86 [.push 711 "FillMem(p, 0x10,  &code);",
          .placeholder 710 " FillMem(p, 0x10, &code);", .push 687 "// none",
          .placeholder 687 "// late", .push 712 "// none"] = run .x86 mixedOperations := by
  have hgroups : Groups mixedOperations mixedBranches := by
    constructor
    · decide
    · intro n
      simp [mixedBranches, mixedOperations, Operation.build]
      lia
    · decide
    · simp only [alike_iff]
      decide +kernel
  have hapart : Apart mixedBranches := by
    unfold Apart
    simp only [alike_iff]
    decide +kernel
  rcases branches_coarsest .x86 mixedOperations with ⟨_, _, _, hcoarsest, _, hswap⟩
  refine ⟨hgroups, hapart, (hcoarsest mixedBranches hgroups).2 hapart, ?_⟩
  exact hswap [_] (.push 687 "// none") (.placeholder 710 " FillMem(p, 0x10, &code);") [_, _]
    rfl (by decide)

end BuildCases
end JumpHooks
