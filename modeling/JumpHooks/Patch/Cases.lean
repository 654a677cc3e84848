import JumpHooks.Error
import JumpHooks.Text.Blank

/-!
# Cases

The statements of each build of one instruction set, in ascending order of the builds, and
how neighbouring builds with the same statements share one branch.
-/

namespace JumpHooks

/-- One branch of a switch: the builds that share it, and their statements. -/
structure Branch where
  builds : List Nat
  statements : List String
deriving DecidableEq, Repr

/-- The statements of one build. -/
structure Case where
  build : Nat
  statements : List String
deriving DecidableEq, Repr

namespace Case

/-- The cases with a statement added to the one of `build`, which is made if there is none.
Cases stay in ascending order. -/
def addTo (build : Nat) (statement : String) : List Case → List Case
  | [] => [⟨build, [statement]⟩]
  | c :: cases =>
      if build < c.build then
        ⟨build, [statement]⟩ :: c :: cases
      else if build = c.build then
        ⟨build, c.statements ++ [statement]⟩ :: cases
      else
        c :: addTo build statement cases

theorem build_addTo {build : Nat} {statement : String} {cases : List Case} {c : Case}
    (h : c ∈ addTo build statement cases) :
    c.build = build ∨ ∃ d ∈ cases, d.build = c.build := by
  induction cases with
  | nil =>
      simp only [addTo, List.mem_singleton] at h
      exact .inl (by rw [h])
  | cons d cases ih =>
      unfold addTo at h
      split at h
      · rcases List.mem_cons.1 h with h | h
        · exact .inl (by rw [h])
        · exact .inr ⟨c, h, rfl⟩
      · split at h
        · rcases List.mem_cons.1 h with h | h
          · exact .inl (by rw [h])
          · exact .inr ⟨c, List.mem_cons_of_mem _ h, rfl⟩
        · rcases List.mem_cons.1 h with h | h
          · exact .inr ⟨d, List.mem_cons_self, by rw [h]⟩
          · rcases ih h with e | ⟨x, hx, e⟩
            · exact .inl e
            · exact .inr ⟨x, List.mem_cons_of_mem _ hx, e⟩

theorem pairwise_addTo (build : Nat) (statement : String) {cases : List Case}
    (h : cases.Pairwise fun a b => a.build < b.build) :
    (addTo build statement cases).Pairwise fun a b => a.build < b.build := by
  induction cases with
  | nil => simp [addTo]
  | cons c cases ih =>
      rw [List.pairwise_cons] at h
      unfold addTo
      split
      · rename_i hlt
        refine List.pairwise_cons.2 ⟨fun d hd => ?_, List.pairwise_cons.2 h⟩
        rcases List.mem_cons.1 hd with rfl | hd
        · exact hlt
        · exact Nat.lt_trans hlt (h.1 d hd)
      · split
        · rename_i heq
          exact List.pairwise_cons.2 ⟨fun d hd => heq ▸ h.1 d hd, h.2⟩
        · rename_i hlt hne
          refine List.pairwise_cons.2 ⟨fun d hd => ?_, ih h.2⟩
          rcases build_addTo hd with e | ⟨x, hx, e⟩
          · omega
          · exact e ▸ h.1 x hx

end Case

/-- The cases of one instruction set, one for each build. -/
structure BuildCases where
  bitness : Bitness
  cases : List Case
  ascending : cases.Pairwise fun a b => a.build < b.build

namespace BuildCases

def empty (b : Bitness) : BuildCases :=
  ⟨b, [], .nil⟩

def size (x : BuildCases) : Nat :=
  x.cases.length

def contains (x : BuildCases) (build : Nat) : Bool :=
  x.cases.any fun c => c.build == build

def push (x : BuildCases) (build : Nat) (statement : String) : BuildCases where
  bitness := x.bitness
  cases := Case.addTo build statement x.cases
  ascending := Case.pairwise_addTo build statement x.ascending

/-- Adds the case of a build that is not handled on purpose, and so must not have one. -/
def insertPlaceholder (x : BuildCases) (build : Nat) (statement : String) :
    Except Error BuildCases :=
  if x.contains build then
    .error (.precondition (.caseExists x.bitness build))
  else
    .ok (x.push build statement)

/-- Whether two statement lists agree but for blanks. -/
def sameStatements (a b : List String) : Bool :=
  a.map Text.words == b.map Text.words

/-- The branches of `cases` when `shared` is open and may take more builds. -/
def branchesFrom (shared : Branch) : List Case → List Branch
  | [] => [shared]
  | c :: cases =>
      if sameStatements shared.statements c.statements then
        branchesFrom ⟨shared.builds ++ [c.build], shared.statements⟩ cases
      else
        shared :: branchesFrom ⟨[c.build], c.statements⟩ cases

/-- The branches: runs of neighbouring builds whose statements agree but for blanks. A
branch has the statements of its first build. -/
def branches (x : BuildCases) : List Branch :=
  match x.cases with
  | [] => []
  | c :: cases => branchesFrom ⟨[c.build], c.statements⟩ cases

end BuildCases
end JumpHooks
