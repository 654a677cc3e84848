import JumpHooks.Proofs.Source.Head

/-!
# Breaking a declaration

The parameters of a declaration are divided into groups that follow each other, one for each
line. No parameter is lost, and no line is too long if every part of the declaration fits on a
line of its own.
-/

namespace JumpHooks
namespace Source

/-!
# Groups of parameters
-/

/-- The beginning of a line and the parameters that stand on it. -/
def groupLine (start : String) (group : List String) : String :=
  start ++ ", ".intercalate group

/-- The lines of a declaration with these groups of parameters. A line in front of the last one
ends in the separator behind its group, if there is a parameter to separate. -/
def declarationLines (start : String) (group : List String) : List (List String) → List String
  | [] => [groupLine start group ++ ")"]
  | next :: groups =>
      (if group = [] then groupLine start group else groupLine start group ++ ",") ::
        declarationLines Writer.indent next groups

@[simp] theorem groupLine_nil (start : String) : groupLine start [] = start := by
  unfold groupLine
  rw [String.intercalate_nil, String.append_empty]

@[simp] theorem groupLine_singleton (start p : String) : groupLine start [p] = start ++ p := by
  unfold groupLine
  rw [String.intercalate_singleton]

theorem groupLine_append_singleton (start : String) {group : List String} (h : group ≠ [])
    (p : String) : groupLine start (group ++ [p]) = groupLine start group ++ ", " ++ p := by
  unfold groupLine
  rw [String.intercalate_append_of_ne_nil h (List.cons_ne_nil p []),
    String.intercalate_singleton, String.append_assoc, String.append_assoc, String.append_assoc]

/-- A line that has been begun ends with the parameters that still fit on it, and the others
are divided into groups of at least one. -/
theorem headLines_groups (start : String) (current params : List String) :
    ∃ (taken : List String) (groups : List (List String)),
      taken ++ groups.flatten = params ∧ (∀ group ∈ groups, group ≠ []) ∧
      headLines (groupLine start current) current.isEmpty params =
        (declarationLines start (current ++ taken) groups).map .line := by
  -- On the parameters, for every line that has been begun and whatever stands on it.
  induction params generalizing start current with
  | nil =>
      refine ⟨[], [], rfl, by simp, ?_⟩
      rw [List.append_nil]
      rfl
  | cons p params ih =>
      unfold headLines
      split
      · -- The line ends in front of the parameter, which is the first one of the next line.
        rcases ih Writer.indent [p] with ⟨taken, groups, hflatten, hnonempty, hlines⟩
        refine ⟨[], ([p] ++ taken) :: groups, ?_, ?_, ?_⟩
        · rw [List.flatten_cons, List.nil_append, List.append_assoc, hflatten]
          rfl
        · intro group hgroup
          rcases List.mem_cons.mp hgroup with heq | hmem
          · rw [heq]
            exact List.cons_ne_nil p taken
          · exact hnonempty group hmem
        · rw [groupLine_singleton] at hlines
          rw [List.append_nil]
          unfold declarationLines
          rw [List.map_cons, ← hlines]
          cases current with
          | nil => rfl
          | cons q current => rfl
      · rcases ih start (current ++ [p]) with ⟨taken, groups, hflatten, hnonempty, hlines⟩
        refine ⟨p :: taken, groups, ?_, hnonempty, ?_⟩
        · rw [List.cons_append, hflatten]
        · rw [List.append_assoc, List.singleton_append] at hlines
          rw [← hlines]
          cases current with
          | nil =>
              rw [List.nil_append, groupLine_nil, groupLine_singleton]
              rfl
          | cons q current =>
              rw [groupLine_append_singleton start (List.cons_ne_nil q current) p]
              rfl

/-!
# The head of a function
-/

/-- A declaration at the margin is written if its opening and each of its parameters leave room
on a line. Its lines are those of the parameters divided into groups, of which only the first may
be empty. -/
theorem functionHead_wraps {result name : String} {params : List String} {w : Writer}
    (hopening : (result ++ " " ++ name ++ "(").utf8ByteSize ≤ 119)
    (hparams : ∀ p ∈ params, p.utf8ByteSize ≤ 118) (hlevel : w.level = 0) :
    ∃ lines : List String,
      w.write (functionHead result name params) = (⟨1, w.lines ++ lines.toArray⟩, none) ∧
      (∀ line ∈ lines, line.length ≤ 120) ∧
      ∃ (group : List String) (groups : List (List String)),
        (group :: groups).flatten = params ∧ (∀ later ∈ groups, later ≠ []) ∧
        lines = declarationLines (result ++ " " ++ name ++ "(") group groups ++ ["\x7b"] := by
  rcases headLines_groups (result ++ " " ++ name ++ "(") [] params with
    ⟨group, groups, hflatten, hnonempty, hlines⟩
  rw [groupLine_nil, List.nil_append] at hlines
  change headLines _ true params = _ at hlines
  have hshort : ∀ line ∈ declarationLines (result ++ " " ++ name ++ "(") group groups,
      line.length ≤ lineLimit := by
    intro line hline
    have hitem : Item.line line ∈ headLines (result ++ " " ++ name ++ "(") true params := by
      rw [hlines]
      exact List.mem_map_of_mem hline
    have hroom : ∀ p ∈ params, p.utf8ByteSize + 2 ≤ lineLimit :=
      fun p hp => Nat.add_le_add_right (hparams p hp) 2
    rcases headLines_short (Nat.lt_succ_of_le hopening) hroom _ hitem with ⟨text, heq, htext⟩
    cases heq
    exact (length_le_utf8ByteSize line).trans htext
  have hbody : Lays 0 [.opening "\x7b"] ["\x7b"] 1 := .cons rfl (by decide) (.nil 1)
  have hhead : Lays 0 (functionHead result name params)
      (declarationLines (result ++ " " ++ name ++ "(") group groups ++ ["\x7b"]) 1 := by
    unfold functionHead
    rw [hlines]
    exact (Lays.atMargin hshort).append hbody
  exact ⟨_, hhead.write w hlevel, hhead.length_le, group, groups, hflatten, hnonempty, rfl⟩

/-- An opening and a parameter that are as long as they may be, and a parameter without a
text. -/
theorem functionHead_wraps_atLimits :
    ∃ lines : List String,
      Writer.empty.write (functionHead "void" (String.ofList (List.replicate 113 'f'))
        [String.ofList (List.replicate 118 'p'), "", "int x"]) =
          (⟨1, #[] ++ lines.toArray⟩, none) ∧
      ∀ line ∈ lines, line.length ≤ 120 := by
  have hopening : ("void" ++ " " ++ String.ofList (List.replicate 113 'f') ++ "(").utf8ByteSize ≤
      119 := by
    decide +kernel
  have hparams : ∀ p ∈ [String.ofList (List.replicate 118 'p'), "", "int x"],
      p.utf8ByteSize ≤ 118 := by
    decide +kernel
  rcases functionHead_wraps hopening hparams (w := .empty) rfl with ⟨lines, hwrite, hshort, -⟩
  exact ⟨lines, hwrite, hshort⟩

end Source
end JumpHooks
