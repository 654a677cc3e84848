import JumpHooks.Proofs.Source.Reading
import JumpHooks.Source.Function
import Mathlib.Algebra.Order.Ring.Nat
import Mathlib.Data.List.Basic
import Mathlib.Data.List.Count
import Mathlib.Data.List.Nodup

/-!
# Switches that read back

A switch reads back as the branches that it was made of, and does for each build what the
branch of this build says.
-/

namespace JumpHooks
namespace Source

/-!
# Labels
-/

def labelText (build : Nat) : String :=
  s!"case {build}:"

theorem toList_labelText (build : Nat) :
    (labelText build).toList =
      'c' :: 'a' :: 's' :: 'e' :: ' ' :: (Nat.toDigits 10 build ++ [':']) := by
  have hdigits : (toString build).toList = Nat.toDigits 10 build := by
    rw [Nat.toString_eq_ofList_toDigits, String.toList_ofList]
  show ("case " ++ toString build ++ ":").toList = _
  rw [String.toList_append, String.toList_append, hdigits]
  rfl

theorem length_labelText_le {build : Nat} (h : build < 2 ^ 32) :
    (labelText build).length ≤ 16 := by
  have hdigits : (Nat.toDigits 10 build).length ≤ 10 :=
    (Nat.length_toDigits_le_iff (by decide) (by decide)).mpr (by lia)
  rw [← String.length_toList, toList_labelText]
  simp only [List.length_cons, List.length_append, List.length_nil]
  omega

namespace Clause

theorem ofText_labelText (build : Nat) : ofText (labelText build) = .label build := by
  have hne : ∀ text : String, text.toList.head? ≠ some 'c' → labelText build ≠ text := by
    intro text htext heq
    rw [← heq, toList_labelText] at htext
    exact htext rfl
  have hdigits : ∀ c ∈ Nat.toDigits 10 build, c.isDigit = true := by
    intro c hc
    exact Nat.isDigit_of_mem_toDigits (by decide) (by decide) hc
  have htake : (Nat.toDigits 10 build ++ [':']).takeWhile Char.isDigit =
      Nat.toDigits 10 build := by
    rw [List.takeWhile_append_of_pos hdigits]
    show Nat.toDigits 10 build ++ [] = _
    rw [List.append_nil]
  have hdrop : (Nat.toDigits 10 build ++ [':']).dropWhile Char.isDigit = [':'] := by
    rw [List.dropWhile_append_of_pos hdigits]
    rfl
  have hnumber : number? (labelText build).toList = some build := by
    rw [toList_labelText, number?, htake, hdrop, if_pos ⟨rfl, Nat.toDigits_ne_nil⟩,
      Nat.ofDigitChars_ten_toDigits]
  unfold ofText
  rw [if_neg (hne _ (by decide)), if_neg (hne _ (by decide)), if_neg (hne _ (by decide)),
    hnumber]

/-!
# Branches
-/

def ofBranch (b : Branch) : List Clause :=
  b.builds.map .label ++ .opening :: (b.statements.map .statement ++ [.leave, .closing])

theorem branches?_labels (collected builds : List Nat) (rest : List Clause) :
    branches? collected none (builds.map .label ++ rest) =
      branches? (collected ++ builds) none rest := by
  induction builds generalizing collected with
  | nil => rw [List.append_nil, List.map_nil, List.nil_append]
  | cons build builds ih =>
      rw [List.map_cons, List.cons_append, branches?, ih, List.append_assoc]
      rfl

theorem branches?_statements (builds : List Nat) (collected texts : List String)
    (rest : List Clause) :
    branches? builds (some collected) (texts.map .statement ++ rest) =
      branches? builds (some (collected ++ texts)) rest := by
  induction texts generalizing collected with
  | nil => rw [List.append_nil, List.map_nil, List.nil_append]
  | cons text texts ih =>
      rw [List.map_cons, List.cons_append, branches?, ih, List.append_assoc]
      rfl

theorem branches?_ofBranch {b : Branch} (hb : b.builds ≠ []) (rest : List Clause) :
    branches? [] none (ofBranch b ++ rest) = (branches? [] none rest).map (b :: ·) := by
  unfold ofBranch
  rw [List.append_assoc, branches?_labels, List.nil_append, List.cons_append, branches?,
    if_neg hb, List.append_assoc, branches?_statements]
  rfl

/-- A switch with nothing behind it but the end of the function reads back as its branches. -/
theorem branches?_flatMap {branches : List Branch} (h : ∀ b ∈ branches, b.builds ≠ []) :
    branches? [] none (branches.flatMap ofBranch ++ [.closing, .closing]) = some branches := by
  induction branches with
  | nil => rfl
  | cons b branches ih =>
      rw [List.flatMap_cons, List.append_assoc, branches?_ofBranch (h b List.mem_cons_self),
        ih fun b' hb' => h b' (List.mem_cons_of_mem _ hb')]
      rfl

/-!
# Selected builds
-/

theorem count_label_ofBranch (build : Nat) (b : Branch) :
    (ofBranch b).count (.label build) = b.builds.count build := by
  have hinjective : Function.Injective Clause.label := by
    intro m n h
    cases h
    rfl
  have hstatements : (b.statements.map Clause.statement).count (.label build) = 0 := by
    rw [List.count_eq_zero]
    intro hmem
    rcases List.mem_map.mp hmem with ⟨text, _, heq⟩
    cases heq
  unfold ofBranch
  rw [List.count_append, List.count_map_of_injective _ _ hinjective, List.count_cons,
    List.count_append, hstatements]
  rfl

theorem count_label (build : Nat) (branches : List Branch) :
    (branches.flatMap ofBranch ++ [closing, closing]).count (label build) =
      (branches.flatMap Branch.builds).count build := by
  induction branches with
  | nil => rfl
  | cons b branches ih =>
      rw [List.flatMap_cons, List.flatMap_cons, List.append_assoc, List.count_append, ih,
        List.count_append, count_label_ofBranch]

theorem run_labels (builds : List Nat) (rest : List Clause) :
    run (builds.map .label ++ rest) = run rest := by
  induction builds with
  | nil => rfl
  | cons build builds ih => exact ih

theorem run_block (texts : List String) (rest : List Clause) :
    run (texts.map .statement ++ .leave :: rest) = texts := by
  induction texts with
  | nil => rfl
  | cons text texts ih => exact congrArg (List.cons text) ih

theorem run_opening_ofBranch (b : Branch) (rest : List Clause) :
    run (.opening :: (b.statements.map .statement ++ [.leave, .closing]) ++ rest) =
      b.statements := by
  show run (b.statements.map .statement ++ [.leave, .closing] ++ rest) = _
  rw [List.append_assoc]
  exact run_block b.statements (.closing :: rest)

theorem select_cons_of_ne {build : Nat} {clause : Clause} (h : clause ≠ .label build)
    (rest : List Clause) : select build (clause :: rest) = select build rest := by
  unfold select
  rw [List.dropWhile_cons_of_pos (by simpa using h)]

theorem select_append_of_notMem {build : Nat} {clauses : List Clause}
    (h : .label build ∉ clauses) (rest : List Clause) :
    select build (clauses ++ rest) = select build rest := by
  unfold select
  rw [List.dropWhile_append_of_pos]
  intro c hc
  rw [bne_iff_ne]
  intro heq
  rw [heq] at hc
  exact h hc

theorem select_of_notMem {build : Nat} {clauses : List Clause} (h : .label build ∉ clauses) :
    select build clauses = [] := by
  have hselect := select_append_of_notMem h []
  rw [List.append_nil] at hselect
  exact hselect

/-- Any of the labels leads to what stands behind all of them. -/
theorem select_labels {build : Nat} {builds : List Nat} (h : build ∈ builds)
    (rest : List Clause) : select build (builds.map .label ++ rest) = run rest := by
  induction builds with
  | nil => exact absurd h List.not_mem_nil
  | cons first builds ih =>
      rw [List.map_cons, List.cons_append]
      by_cases heq : first = build
      · unfold select
        rw [heq, List.dropWhile_cons_of_neg (by simp)]
        exact run_labels builds rest
      · have hne : Clause.label first ≠ .label build := by
          intro hlabel
          cases hlabel
          exact heq rfl
        rw [select_cons_of_ne hne]
        exact ih (List.mem_of_ne_of_mem (Ne.symm heq) h)

theorem select_ofBranch {build : Nat} {b : Branch} (h : build ∈ b.builds)
    (rest : List Clause) : select build (ofBranch b ++ rest) = b.statements := by
  unfold ofBranch
  rw [List.append_assoc, select_labels h, run_opening_ofBranch]

/-- When no build has two labels, a build selects its own branch. -/
theorem select_eq {branches : List Branch} (hnodup : (branches.flatMap Branch.builds).Nodup)
    {b : Branch} (hb : b ∈ branches) {build : Nat} (hbuild : build ∈ b.builds)
    (rest : List Clause) :
    select build (branches.flatMap ofBranch ++ rest) = b.statements := by
  induction branches with
  | nil => exact absurd hb List.not_mem_nil
  | cons first branches ih =>
      rw [List.flatMap_cons] at hnodup
      rcases List.nodup_append.mp hnodup with ⟨_, hothers, hapart⟩
      rw [List.flatMap_cons, List.append_assoc]
      -- A build in the first branch is in no other; one that is not there skips its labels.
      by_cases hmem : build ∈ first.builds
      · have heq : b = first := by
          rcases List.mem_cons.mp hb with heq | hrest
          · exact heq
          · have hlater := List.mem_flatMap.mpr ⟨b, hrest, hbuild⟩
            exact absurd rfl (hapart build hmem build hlater)
        rw [heq]
        exact select_ofBranch hmem _
      · have hnot : .label build ∉ ofBranch first := by
          rw [← List.count_eq_zero, count_label_ofBranch, List.count_eq_zero]
          exact hmem
        rw [select_append_of_notMem hnot]
        refine ih hothers (List.mem_of_ne_of_mem ?_ hb)
        intro heq
        rw [heq] at hbuild
        exact hmem hbuild

end Clause

/-!
# Lines of a switch
-/

/-- A text that is neither indented nor a directive, and means itself in a switch. -/
structure IsStatement (text : String) : Prop where
  first : text.toList.head? ≠ some '\t' ∧ text.toList.head? ≠ some '#'
  clause : Clause.ofText text = .statement text

/-- A text is a statement if it does not begin as a tab, a directive or another clause does. -/
theorem isStatement_of_head {text : String} {c : Char} (h : text.toList.head? = some c)
    (hc : c ∉ ['\t', '#', '\x7b', '\x7d', 'b', 'c']) : IsStatement text := by
  have hhead : ∀ d ∈ ['\t', '#', '\x7b', '\x7d', 'b', 'c'], text.toList.head? ≠ some d := by
    intro d hd heq
    rw [h] at heq
    cases heq
    exact hc hd
  have hne : ∀ other d, other.toList.head? = some d →
      d ∈ ['\t', '#', '\x7b', '\x7d', 'b', 'c'] → text ≠ other := by
    intro other d hother hd heq
    rw [← heq] at hother
    exact hhead d hd hother
  have hnumber : Clause.number? text.toList = none := by
    unfold Clause.number?
    split
    · rename_i hlabel
      exact absurd (congrArg List.head? hlabel) (hhead 'c' (by decide))
    · rfl
  constructor
  · exact ⟨hhead '\t' (by decide), hhead '#' (by decide)⟩
  · unfold Clause.ofText
    rw [if_neg (hne _ '\x7b' rfl (by decide)), if_neg (hne _ '\x7d' rfl (by decide)),
      if_neg (hne _ 'b' rfl (by decide)), hnumber]

/-- The texts of a branch, with the indentation of each. -/
def branchLines (level : Nat) (b : Branch) : List String :=
  (b.builds.map labelText).map (Writer.indented level) ++
    (Writer.indented level "\x7b" ::
      (b.statements ++ ["break;"]).map (Writer.indented (level + 1)) ++
        [Writer.indented level "\x7d"])

theorem lays_branchItems {level : Nat} {b : Branch} (hlevel : level ≤ 100)
    (hbuilds : ∀ build ∈ b.builds, build < 2 ^ 32)
    (hstatements : ∀ text ∈ b.statements, level + 1 + text.length ≤ lineLimit) :
    Lays level (branchItems b) (branchLines level b) level := by
  have hitems : branchItems b = (b.builds.map labelText).map .line ++
      (.opening "\x7b" :: (b.statements ++ ["break;"]).map .line ++ [.closing "\x7d"]) := by
    unfold branchItems
    rw [List.map_append, List.map_map]
    simp [labelText, Function.comp_def]
  have hlabels : ∀ text ∈ b.builds.map labelText, level + text.length ≤ lineLimit := by
    intro text htext
    rcases List.mem_map.mp htext with ⟨build, hbuild, heq⟩
    have hlength := length_labelText_le (hbuilds build hbuild)
    rw [heq] at hlength
    unfold lineLimit
    lia
  have hblock : ∀ text ∈ b.statements ++ ["break;"], level + 1 + text.length ≤ lineLimit := by
    intro text htext
    rcases List.mem_append.mp htext with hmem | hbreak
    · exact hstatements text hmem
    · rw [List.mem_singleton.mp hbreak]
      have hlength : "break;".length = 6 := by decide
      unfold lineLimit
      lia
  have hbrace : ∀ text : String, text.length = 1 → level + text.length ≤ lineLimit := by
    intro text htext
    unfold lineLimit
    lia
  rw [hitems]
  exact (Lays.ofLines hlabels).append
    (Lays.block _ _ (hbrace _ (by decide)) (hbrace _ (by decide)) (Lays.ofLines hblock))

theorem lays_switchCases {level : Nat} {branches : List Branch} (hlevel : level ≤ 100)
    (hbuilds : ∀ b ∈ branches, ∀ build ∈ b.builds, build < 2 ^ 32)
    (hstatements : ∀ b ∈ branches, ∀ text ∈ b.statements,
      level + 1 + text.length ≤ lineLimit) :
    Lays level (switchCases branches) (branches.flatMap (branchLines level)) level := by
  induction branches with
  | nil => exact .nil level
  | cons b branches ih =>
      unfold switchCases
      rw [List.flatMap_cons, List.flatMap_cons]
      exact (lays_branchItems hlevel (hbuilds b List.mem_cons_self)
        (hstatements b List.mem_cons_self)).append
          (ih (fun b' hb' => hbuilds b' (List.mem_cons_of_mem _ hb'))
            fun b' hb' => hstatements b' (List.mem_cons_of_mem _ hb'))

/-- What is in a switch: labels, braces, `break` and the statements. -/
theorem unindented_branchLines {level : Nat} {b : Branch}
    (h : ∀ text ∈ b.statements, IsStatement text) :
    (branchLines level b).map unindented =
      b.builds.map labelText ++ ("\x7b" :: (b.statements ++ ["break;"]) ++ ["\x7d"]) := by
  have hlabels : ∀ text ∈ b.builds.map labelText, text.toList.head? ≠ some '\t' := by
    intro text htext
    rcases List.mem_map.mp htext with ⟨build, _, heq⟩
    rw [← heq, toList_labelText]
    exact (by decide : some 'c' ≠ some '\t')
  have hblock : ∀ text ∈ b.statements ++ ["break;"], text.toList.head? ≠ some '\t' := by
    intro text htext
    rcases List.mem_append.mp htext with hmem | hbreak
    · exact (h text hmem).first.1
    · rw [List.mem_singleton.mp hbreak]
      decide
  have hopening : unindented (Writer.indented level "\x7b") = "\x7b" :=
    Writer.unindented_indented (by decide)
  have hclosing : unindented (Writer.indented level "\x7d") = "\x7d" :=
    Writer.unindented_indented (by decide)
  unfold branchLines
  rw [List.map_append, List.map_append, List.map_cons, Writer.map_unindented hlabels,
    Writer.map_unindented hblock, hopening, List.map_singleton, hclosing]

theorem clauses_branchLines {level : Nat} {b : Branch}
    (h : ∀ text ∈ b.statements, IsStatement text) :
    (branchLines level b).map (fun l => Clause.ofText (unindented l)) = Clause.ofBranch b := by
  have hlabels : (b.builds.map labelText).map Clause.ofText = b.builds.map .label := by
    rw [List.map_map]
    exact List.map_congr_left fun build _ => Clause.ofText_labelText build
  have hstatements : b.statements.map Clause.ofText = b.statements.map .statement :=
    List.map_congr_left fun text htext => (h text htext).clause
  show (branchLines level b).map (Clause.ofText ∘ unindented) = _
  rw [← List.map_map, unindented_branchLines h]
  unfold Clause.ofBranch
  rw [List.map_append, List.map_append, List.map_cons, List.map_append, hlabels, hstatements,
    List.cons_append, List.append_assoc]
  rfl

theorem clauses_switch {level : Nat} {branches : List Branch}
    (h : ∀ b ∈ branches, ∀ text ∈ b.statements, IsStatement text) :
    (branches.flatMap (branchLines level)).map (fun l => Clause.ofText (unindented l)) =
      branches.flatMap Clause.ofBranch := by
  rw [List.map_flatMap]
  exact List.flatMap_congr fun b hb => clauses_branchLines (h b hb)

end Source
end JumpHooks
