import JumpHooks.Source.Splice
import Mathlib.Data.List.Basic

/-!
# Replacing the generated part

The text above the marker is taken apart into lines and put together again. Nothing is lost as
long as the line that is dropped is the separator of the marker, and as long as there is some
text above it: of an empty line that stands there alone nothing remains to tell it from no line.
-/

namespace JumpHooks
namespace Source

/-!
# Lines and their ends
-/

/-- The text of the lines, each with its end. -/
def ended (lines : List String) : String :=
  String.join (lines.map (· ++ "\n"))

theorem ended_nil : ended [] = "" := rfl

theorem ended_cons (line : String) (lines : List String) :
    ended (line :: lines) = line ++ "\n" ++ ended lines := by
  unfold ended
  rw [List.map_cons, String.join_cons]

theorem ended_append (above below : List String) :
    ended (above ++ below) = ended above ++ ended below := by
  unfold ended
  rw [List.map_append, String.join_append]

theorem ended_eq_empty_iff {lines : List String} : ended lines = "" ↔ lines = [] := by
  cases lines with
  | nil => simp [ended_nil]
  | cons line rest => simp [ended_cons, String.append_eq_empty_iff]

/-- Ends of lines are what stands between them, and one more. -/
theorem intercalate_eq_ended {lines : List String} (h : lines ≠ []) :
    "\n".intercalate lines ++ "\n" = ended lines := by
  induction lines with
  | nil => exact absurd rfl h
  | cons line rest ih =>
      cases rest with
      | nil => rw [String.intercalate_singleton, ended_cons, ended_nil, String.append_empty]
      | cons next rest =>
          rw [String.intercalate_cons_cons, String.append_assoc, ih (List.cons_ne_nil _ _),
            ← ended_cons]

theorem intercalate_eq_empty_iff {lines : List String} :
    "\n".intercalate lines = "" ↔ lines = [] ∨ lines = [""] := by
  cases lines with
  | nil => simp
  | cons line rest =>
      cases rest with
      | nil => simp
      | cons next rest => simp [String.append_eq_empty_iff]

theorem linesFrom_append {line : List Char} (h : '\n' ∉ line) (current rest : List Char) :
    Text.linesFrom current (line ++ '\n' :: rest) =
      Text.finishedLine (line.reverse ++ current) :: Text.linesFrom [] rest := by
  induction line generalizing current with
  | nil => rfl
  | cons c cs ih =>
      rw [List.mem_cons, not_or] at h
      rw [List.cons_append, Text.linesFrom, if_neg (Ne.symm h.1), ih h.2, List.reverse_cons,
        List.append_assoc, List.singleton_append]

theorem finishedLine_of_head? {cs : List Char} (h : cs.head? ≠ some '\r') :
    Text.finishedLine cs = String.ofList cs.reverse := by
  unfold Text.finishedLine
  split
  · exact absurd rfl h
  · rfl

/-- Nothing in the line is taken for its end, nor for a part of the end behind it. -/
def Closed (line : String) : Prop :=
  '\n' ∉ line.toList ∧ line.toList.getLast? ≠ some '\r'

/-- Lines are found again by their ends, whatever follows them. -/
theorem lines_ended_append {lines : List String} (h : ∀ line ∈ lines, Closed line)
    (rest : String) : Text.lines (ended lines ++ rest) = lines ++ Text.lines rest := by
  induction lines with
  | nil => rw [ended_nil, String.empty_append, List.nil_append]
  | cons line lines ih =>
      rw [List.forall_mem_cons] at h
      have hline : line.toList.reverse.head? ≠ some '\r' := by
        rw [List.head?_reverse]
        exact h.1.2
      have hrest : Text.linesFrom [] (ended lines ++ rest).toList = lines ++ Text.lines rest :=
        ih h.2
      unfold Text.lines
      rw [ended_cons, String.append_assoc, String.append_assoc, String.toList_append,
        String.toList_append]
      show Text.linesFrom [] (line.toList ++ '\n' :: (ended lines ++ rest).toList) = _
      rw [linesFrom_append h.1.1, List.append_nil, finishedLine_of_head? hline,
        List.reverse_reverse, String.ofList_toList, hrest, List.cons_append]
      rfl

/-- Nothing in the line ends it. -/
def Unbroken (line : String) : Prop :=
  '\n' ∉ line.toList ∧ '\r' ∉ line.toList

instance (line : String) : Decidable (Unbroken line) :=
  inferInstanceAs (Decidable (_ ∧ _))

theorem length_separator : separator.length = 80 := by
  unfold separator
  rw [String.length_ofList, List.length_replicate]

theorem unbroken_separator : Unbroken separator := by
  unfold Unbroken separator
  rw [String.toList_ofList, List.mem_replicate, List.mem_replicate]
  decide

theorem Unbroken.closed {line : String} (h : Unbroken line) : Closed line :=
  ⟨h.1, fun hlast => h.2 (List.mem_of_getLast? hlast)⟩

theorem lines_ended {lines : List String} (h : ∀ line ∈ lines, Unbroken line) :
    Text.lines (ended lines) = lines := by
  have hlines := lines_ended_append (fun line hline => (h line hline).closed) ""
  rw [String.append_empty] at hlines
  exact hlines.trans (List.append_nil lines)

/-!
# The marker
-/

/-- Line number `m` is the first one that is the marker. -/
structure MarkedAt (lines : List String) (m : Nat) : Prop where
  marker : lines[m]? = some marker
  first : ∀ j, j < m → lines[j]? ≠ some Source.marker

theorem markedAt_iff {lines : List String} {m : Nat} :
    MarkedAt lines m ↔ lines.findIdx? (· == marker) = some m := by
  rw [List.findIdx?_eq_some_iff_getElem]
  constructor
  · intro h
    rcases List.getElem?_eq_some_iff.mp h.marker with ⟨hm, hmarker⟩
    refine ⟨hm, beq_iff_eq.mpr hmarker, ?_⟩
    intro j hj hfound
    apply h.first j hj
    rw [List.getElem?_eq_getElem (Nat.lt_trans hj hm), eq_of_beq hfound]
  · intro h
    rcases h with ⟨hm, hmarker, hfirst⟩
    constructor
    · rw [List.getElem?_eq_getElem hm, eq_of_beq hmarker]
    · intro j hj hfound
      apply hfirst j hj
      rw [List.getElem?_eq_getElem (Nat.lt_trans hj hm), Option.some.injEq] at hfound
      exact beq_iff_eq.mpr hfound

instance (lines : List String) (m : Nat) : Decidable (MarkedAt lines m) :=
  decidable_of_iff _ markedAt_iff.symm

/-- The lines above the marker in line `m`, without the separator that belongs to it. -/
def above (lines : List String) (m : Nat) : List String :=
  if 0 < m ∧ lines[m - 1]? = some separator then lines.take (m - 1) else lines.take m

/-- What remains of lines that are joined: an empty line alone is no text. -/
def joined (lines : List String) : List String :=
  if lines = [""] then [] else lines

theorem exists_markedAt {lines : List String} (h : marker ∈ lines) :
    ∃ m, MarkedAt lines m := by
  rcases hfound : lines.findIdx? (· == marker) with _ | m
  · rw [List.findIdx?_eq_none_iff] at hfound
    exact absurd (hfound marker h) (by simp)
  · exact ⟨m, markedAt_iff.mpr hfound⟩

/-- In front of what is generated stand the lines that are kept, each with its end. -/
theorem splice_eq_of_markedAt {existing : String} {m : Nat}
    (hm : MarkedAt (Text.lines existing) m) (generated : List String) :
    splice existing generated =
      .ok (ended (joined ((Text.lines existing).take (m - 1))) ++
        ("\n".intercalate generated ++ "\n")) := by
  unfold splice handWritten?
  rw [markedAt_iff.mp hm, Option.map_some]
  dsimp only
  generalize (Text.lines existing).take (m - 1) = kept
  rw [String.append_assoc]
  congr 2
  unfold joined
  by_cases hempty : "\n".intercalate kept = ""
  · rw [if_pos (String.isEmpty_iff.mpr hempty), hempty]
    rcases intercalate_eq_empty_iff.mp hempty with hnil | hblank
    · rw [hnil]
      rfl
    · rw [if_pos hblank, ended_nil]
  · rw [if_neg (mt String.isEmpty_iff.mp hempty)]
    rw [intercalate_eq_empty_iff, not_or] at hempty
    rw [if_neg hempty.2, intercalate_eq_ended hempty.1]

theorem splice_of_markedAt {existing : String} {generated : List String} (h : generated ≠ [])
    {m : Nat} (hm : MarkedAt (Text.lines existing) m) :
    splice existing generated =
      .ok (ended (joined ((Text.lines existing).take (m - 1)) ++ generated)) := by
  rw [splice_eq_of_markedAt hm, intercalate_eq_ended h, ended_append]

/-- A text is spliced exactly if it has a marker. -/
theorem exists_splice_iff {existing : String} {generated : List String} :
    (∃ text, splice existing generated = .ok text) ↔ marker ∈ Text.lines existing := by
  constructor
  · intro h
    rcases h with ⟨text, hsplice⟩
    unfold splice handWritten? at hsplice
    cases hfound : (Text.lines existing).findIdx? (· == marker) with
    | none =>
        rw [hfound] at hsplice
        cases hsplice
    | some m => exact List.mem_of_getElem? (markedAt_iff.mpr hfound).marker
  · intro h
    rcases exists_markedAt h with ⟨m, hm⟩
    exact ⟨_, splice_eq_of_markedAt hm generated⟩

/-- The lines that remain are the ones above the marker exactly if no more than its separator is
dropped and something is left to be joined. -/
theorem ended_joined_eq_iff {lines : List String} {m : Nat} (hm : m < lines.length) :
    ended (joined (lines.take (m - 1))) = ended (above lines m) ↔
      (m = 0 ∨ lines[m - 1]? = some separator) ∧ lines.take (m - 1) ≠ [""] := by
  have hjoined : lines.take (m - 1) ≠ [""] →
      joined (lines.take (m - 1)) = lines.take (m - 1) := fun hblank => if_neg hblank
  by_cases hdropped : m = 0 ∨ lines[m - 1]? = some separator
  · have habove : above lines m = lines.take (m - 1) := by
      unfold above
      rcases hdropped with hzero | hseparator
      · rw [hzero]
        exact if_neg fun h => absurd h.1 (Nat.lt_irrefl 0)
      · by_cases hpos : 0 < m
        · exact if_pos ⟨hpos, hseparator⟩
        · rw [if_neg fun h => hpos h.1, Nat.eq_zero_of_not_pos hpos]
    rw [habove]
    by_cases hblank : lines.take (m - 1) = [""]
    · simp [joined, hblank, ended_nil, ended_cons]
    · simp [hjoined hblank, hdropped, hblank]
  · -- The line in front of the marker is no separator, and is missing.
    have hpos : 0 < m := Nat.pos_of_ne_zero fun h => hdropped (.inl h)
    have hplace : m - 1 < lines.length := by lia
    have habove : above lines m = lines.take (m - 1) ++ [lines[m - 1]] := by
      unfold above
      rw [if_neg fun h => hdropped (.inr h.2), ← List.take_succ_eq_append_getElem hplace,
        Nat.sub_add_cancel hpos]
    have hne : ended (joined (lines.take (m - 1))) ≠ ended (above lines m) := by
      intro heq
      rw [habove] at heq
      by_cases hblank : lines.take (m - 1) = [""]
      · rw [joined, if_pos hblank, ended_nil, eq_comm, ended_eq_empty_iff] at heq
        exact List.append_ne_nil_of_right_ne_nil _ (List.cons_ne_nil _ _) heq
      · rw [hjoined hblank, ended_append, eq_comm, String.append_eq_left_iff,
          ended_eq_empty_iff] at heq
        cases heq
    simp [hne, hdropped]

/-- Without a marker there is nothing to replace. With one, the text is kept up to the line above
the marker, and it is all the text above it exactly if that line is the separator and the text is
not an empty line alone. -/
theorem splice_keeps_lines_iff (existing : String) {generated : List String}
    (h : generated ≠ []) :
    (marker ∉ Text.lines existing →
      splice existing generated = .error (.noMarker marker)) ∧
    ∀ m, MarkedAt (Text.lines existing) m →
      splice existing generated =
        .ok (ended (joined ((Text.lines existing).take (m - 1)) ++ generated)) ∧
      (splice existing generated = .ok (ended (above (Text.lines existing) m ++ generated)) ↔
        (m = 0 ∨ (Text.lines existing)[m - 1]? = some separator) ∧
          (Text.lines existing).take (m - 1) ≠ [""]) := by
  constructor
  · intro hmissing
    have hnone : (Text.lines existing).findIdx? (· == marker) = none := by
      rw [List.findIdx?_eq_none_iff]
      intro line hline
      rw [beq_eq_false_iff_ne]
      intro heq
      exact hmissing (heq ▸ hline)
    unfold splice handWritten?
    rw [hnone]
    rfl
  · intro m hm
    have hsplice := splice_of_markedAt h hm
    refine ⟨hsplice, ?_⟩
    rw [hsplice, Except.ok.injEq, ended_append, ended_append, String.append_left_inj]
    exact ended_joined_eq_iff (List.getElem?_eq_some_iff.mp hm.marker).1

/-- The lines of a file with something written by hand in front of the generated part. -/
def includingLines : List String :=
  ["#include \"x.h\"", "", separator, marker, separator, "old();"]

theorem splice_keeps_lines_iff_including :
    ["new();"] ≠ [] ∧ MarkedAt (Text.lines (ended includingLines)) 3 ∧
      splice (ended includingLines) ["new();"] = .ok "#include \"x.h\"\n\nnew();\n" := by
  have hlines : Text.lines (ended includingLines) = includingLines :=
    lines_ended (by
      simp only [includingLines, List.forall_mem_cons, unbroken_separator]
      decide +kernel)
  have hgenerated : ["new();"] ≠ [] := List.cons_ne_nil _ _
  have hmarked : MarkedAt (Text.lines (ended includingLines)) 3 := by
    rw [hlines]
    decide +kernel
  have hkept := ((splice_keeps_lines_iff (ended includingLines) hgenerated).2 3 hmarked).1
  rw [hlines] at hkept
  exact ⟨hgenerated, hmarked, hkept⟩

/-- An empty line in front of the generated part. -/
def blankLines : List String :=
  ["", separator, marker, separator, "old();"]

/-- A marker without a separator. -/
def bareLines : List String :=
  ["void init();", marker]

/-- Lines above the marker that are written by hand, and that are lost. -/
theorem splice_loses_lines :
    (MarkedAt (Text.lines (ended blankLines)) 2 ∧
      splice (ended blankLines) ["new();"] = .ok "new();\n" ∧
        ended (above (Text.lines (ended blankLines)) 2 ++ ["new();"]) ≠ "new();\n") ∧
    MarkedAt (Text.lines (ended bareLines)) 1 ∧
      splice (ended bareLines) ["new();"] = .ok "new();\n" ∧
        ended (above (Text.lines (ended bareLines)) 1 ++ ["new();"]) ≠ "new();\n" := by
  have hgenerated : ["new();"] ≠ [] := List.cons_ne_nil _ _
  have hblank : Text.lines (ended blankLines) = blankLines :=
    lines_ended (by
      simp only [blankLines, List.forall_mem_cons, unbroken_separator]
      decide +kernel)
  have hbare : Text.lines (ended bareLines) = bareLines := lines_ended (by decide +kernel)
  have hblankMarked : MarkedAt (Text.lines (ended blankLines)) 2 := by
    rw [hblank]
    decide +kernel
  have hbareMarked : MarkedAt (Text.lines (ended bareLines)) 1 := by
    rw [hbare]
    decide +kernel
  refine ⟨⟨hblankMarked, ?_, ?_⟩, hbareMarked, ?_, ?_⟩
  · rw [splice_of_markedAt hgenerated hblankMarked, hblank]
    rfl
  · rw [hblank]
    decide +kernel
  · rw [splice_of_markedAt hgenerated hbareMarked, hbare]
    rfl
  · rw [hbare]
    decide +kernel

end Source
end JumpHooks
