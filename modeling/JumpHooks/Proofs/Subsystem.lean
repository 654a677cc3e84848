import JumpHooks.Subsystem
import Mathlib.Data.List.Nodup

/-!
# Names of subsystems

No two subsystems have names that differ only in the case of their letters, so a name decides
which one is found. Only the ending of a file name is told apart from other letters: it has to be
taken off before names are compared, and it is looked for in small letters.
-/

namespace JumpHooks
namespace Subsystem

/-!
# Letters without their case
-/

/-- The characters of a text, with every letter from A to Z small. -/
def small (s : String) : List Char :=
  s.toList.map Char.toLower

theorem sameLetters_iff {a b : String} : sameLetters a b = true ↔ small a = small b := by
  unfold sameLetters small
  rw [beq_iff_eq, ← String.toList_inj, String.toList_map, String.toList_map]

theorem small_append (a b : String) : small (a ++ b) = small a ++ small b := by
  unfold small
  rw [String.toList_append, List.map_append]

theorem mem_all (x : Subsystem) : x ∈ all := by
  cases x <;> decide

/-- The names are different in more than the case of their letters. -/
theorem nodup_small_names : (all.map fun x => small x.name).Nodup := by
  decide

theorem eq_of_small_name_eq {x y : Subsystem} (h : small x.name = small y.name) : x = y :=
  List.inj_on_of_nodup_map nodup_small_names (mem_all x) (mem_all y) h

theorem dot_notMem_small_name (x : Subsystem) : '.' ∉ small x.name := by
  cases x <;> decide

/-!
# The ending of file names
-/

/-- The text ends like the name of a file, in small letters. -/
def EndsSmall (s : String) : Prop :=
  ".dll".toList <:+ s.toList

instance (s : String) : Decidable (EndsSmall s) :=
  inferInstanceAs (Decidable (_ <:+ _))

theorem endsSmall_iff {s : String} : EndsSmall s ↔ ∃ stem, s = stem ++ ".dll" := by
  constructor
  · intro h
    rcases h with ⟨stem, hstem⟩
    refine ⟨String.ofList stem, ?_⟩
    rw [← String.toList_inj, String.toList_append, String.toList_ofList, hstem]
  · intro h
    rcases h with ⟨stem, rfl⟩
    exact ⟨stem.toList, String.toList_append.symm⟩

theorem withoutEnding_append (stem : String) : withoutEnding (stem ++ ".dll") = stem := by
  have hreverse : (stem ++ ".dll").toList.reverse =
      'l' :: 'l' :: 'd' :: '.' :: stem.toList.reverse := by
    rw [String.toList_append, List.reverse_append]
    rfl
  unfold withoutEnding
  rw [hreverse]
  show String.ofList stem.toList.reverse.reverse = stem
  rw [List.reverse_reverse, String.ofList_toList]

theorem withoutEnding_eq_self {s : String} (h : ¬ EndsSmall s) : withoutEnding s = s := by
  unfold withoutEnding
  split
  · rename_i stem hreverse
    refine absurd ⟨stem.reverse, ?_⟩ h
    rw [← List.reverse_inj, hreverse, List.reverse_append, List.reverse_reverse]
    rfl
  · rfl

/-- The ending has four letters, so it can be taken off both sides of a comparison. -/
theorem small_append_ending_eq_iff (s : String) (x : Subsystem) :
    small (s ++ ".dll") = small x.fileName ↔ small s = small x.name := by
  unfold fileName
  rw [small_append, small_append, List.append_left_inj]

theorem dot_mem_small_fileName (x : Subsystem) : '.' ∈ small x.fileName := by
  unfold fileName
  rw [small_append]
  exact List.mem_append_right _ (by decide)

/-!
# Looking a name up
-/

theorem ofName?_eq_some_iff_small {s : String} {x : Subsystem} :
    ofName? s = some x ↔ small x.name = small (withoutEnding s) := by
  unfold ofName?
  constructor
  · intro h
    have hx := List.find?_some h
    exact sameLetters_iff.mp hx
  · intro h
    cases hfound : all.find? fun y => sameLetters y.name (withoutEnding s) with
    | none =>
        exact absurd (sameLetters_iff.mpr h) (List.find?_eq_none.mp hfound x (mem_all x))
    | some y =>
        have hy := List.find?_some hfound
        rw [eq_of_small_name_eq ((sameLetters_iff.mp hy).trans h.symm)]

/-- The text is the name of the subsystem or of its file, in whatever case. -/
def IsNamed (x : Subsystem) (s : String) : Prop :=
  sameLetters s x.name = true ∨ sameLetters s x.fileName = true

theorem isNamed_iff {x : Subsystem} {s : String} :
    x.IsNamed s ↔ small s = small x.name ∨ small s = small x.fileName := by
  unfold IsNamed
  rw [sameLetters_iff, sameLetters_iff]

theorem EndsSmall.small_ne_name {s : String} (h : EndsSmall s) (x : Subsystem) :
    small s ≠ small x.name := by
  rcases endsSmall_iff.mp h with ⟨stem, rfl⟩
  intro heq
  apply dot_notMem_small_name x
  rw [← heq, small_append]
  exact List.mem_append_right _ (by decide)

theorem EndsSmall.ofName?_eq_some_iff_file {s : String} (h : EndsSmall s) {x : Subsystem} :
    ofName? s = some x ↔ small s = small x.fileName := by
  rcases endsSmall_iff.mp h with ⟨stem, rfl⟩
  rw [ofName?_eq_some_iff_small, withoutEnding_append, small_append_ending_eq_iff]
  exact eq_comm

/-- With a dot in it, but not the ending in small letters, a text is no name. -/
theorem ofName?_eq_none_of_dot {s : String} (hends : ¬ EndsSmall s) (hdot : '.' ∈ small s) :
    ofName? s = none := by
  cases h : ofName? s with
  | none => rfl
  | some y =>
      rw [ofName?_eq_some_iff_small, withoutEnding_eq_self hends] at h
      rw [← h] at hdot
      exact absurd hdot (dot_notMem_small_name y)

/-- A subsystem is found under its name, and under the name of its file if the ending is in small
letters; the case of all other letters makes no difference. With a capital letter in the ending, the
name of a file leads to no subsystem, and never to a wrong one. -/
theorem ofName?_eq_some_iff (s : String) (x : Subsystem) :
    (ofName? s = some x ↔
      sameLetters s x.name = true ∨ sameLetters s x.fileName = true ∧ EndsSmall s) ∧
    (x.IsNamed s ↔ ofName? s = some x ∨
      ofName? s = none ∧ sameLetters s x.fileName = true ∧ ¬ EndsSmall s) := by
  rw [isNamed_iff, sameLetters_iff, sameLetters_iff]
  by_cases hends : EndsSmall s
  · have hname := hends.small_ne_name x
    have hfile := hends.ofName?_eq_some_iff_file (x := x)
    simp [hends, hname, hfile]
  · have hname : ofName? s = some x ↔ small s = small x.name := by
      rw [ofName?_eq_some_iff_small, withoutEnding_eq_self hends]
      exact eq_comm
    have hnone : small s = small x.fileName → ofName? s = none := by
      intro h
      apply ofName?_eq_none_of_dot hends
      rw [h]
      exact dot_mem_small_fileName x
    rw [hname]
    constructor
    · simp [hends]
    · apply or_congr Iff.rfl
      rw [and_iff_left hends, and_iff_right_of_imp hnone]

/-- A file name is not found if its ending is in capital letters. -/
theorem ofName?_capital_ending :
    game.IsNamed "CryGame.DLL" ∧ ofName? "CryGame.DLL" = none := by
  constructor
  · exact isNamed_iff.mpr (.inr (by decide))
  · exact ofName?_eq_none_of_dot (by decide) (by decide)

end Subsystem
end JumpHooks
