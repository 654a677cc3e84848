import JumpHooks.Proofs.Source.Layout
import JumpHooks.Proofs.Source.Splicing
import Mathlib.Data.List.Infix

/-!
# Generating again

What is kept of a text is found again above the header that is written behind it, and so the
next generation keeps the same. Only where a line of the text ends in carriage returns of its own
would its end take one of them away each time.
-/

namespace JumpHooks
namespace Source

/-!
# Lines of a text
-/

theorem closed_finishedLine {current : List Char} (hfeed : '\n' ∉ current)
    (hreturns : ¬ ['\r', '\r'] <+: current) : Closed (Text.finishedLine current) := by
  unfold Text.finishedLine Closed
  split
  · rename_i cs
    rw [List.mem_cons, not_or] at hfeed
    rw [String.toList_ofList, List.mem_reverse, List.getLast?_reverse]
    refine ⟨hfeed.2, ?_⟩
    intro hhead
    rcases List.head?_eq_some_iff.mp hhead with ⟨rest, rfl⟩
    exact hreturns ⟨rest, rfl⟩
  · rename_i hreturn
    rw [String.toList_ofList, List.mem_reverse, List.getLast?_reverse]
    refine ⟨hfeed, ?_⟩
    intro hhead
    rcases List.head?_eq_some_iff.mp hhead with ⟨rest, rfl⟩
    exact hreturn rest rfl

/-- The lines in front of the last one can be written again as they were read. -/
theorem closed_of_mem_linesFrom {current cs : List Char} (hfeed : '\n' ∉ current)
    (hends : ¬ ['\r', '\r', '\n'] <:+: current.reverse ++ cs) :
    ∀ line ∈ (Text.linesFrom current cs).dropLast, Closed line := by
  -- On the characters, with those of the line that has been begun in `current`.
  induction cs generalizing current with
  | nil =>
      unfold Text.linesFrom
      split <;> simp
  | cons c cs ih =>
      unfold Text.linesFrom
      by_cases hc : c = '\n'
      · rw [if_pos hc]
        have hfirst : Closed (Text.finishedLine current) := by
          apply closed_finishedLine hfeed
          intro hreturns
          rcases hreturns with ⟨rest, rfl⟩
          apply hends
          exact ⟨rest.reverse, cs, by simp [hc]⟩
        have hrest : ∀ line ∈ (Text.linesFrom [] cs).dropLast, Closed line := by
          apply ih List.not_mem_nil
          intro hmore
          exact hends (hmore.trans ⟨current.reverse ++ [c], [], by simp⟩)
        intro line hline
        cases hlines : Text.linesFrom [] cs with
        | nil =>
            rw [hlines] at hline
            cases hline
        | cons next others =>
            rw [hlines] at hline hrest
            rw [List.dropLast_cons_cons] at hline
            rcases List.mem_cons.mp hline with heq | hmem
            · rw [heq]
              exact hfirst
            · exact hrest line hmem
      · rw [if_neg hc]
        apply ih
        · rw [List.mem_cons, not_or]
          exact ⟨Ne.symm hc, hfeed⟩
        · rw [List.reverse_cons, List.append_assoc, List.singleton_append]
          exact hends

/-!
# The header
-/

/-- The lines of the header of the generated part. -/
def headerLines : List String :=
  [separator, marker, separator]

theorem separator_ne_marker : separator ≠ marker := by
  intro h
  have hblank : ' ' ∈ separator.toList := by
    rw [h]
    decide
  unfold separator at hblank
  rw [String.toList_ofList, List.mem_replicate] at hblank
  exact absurd hblank.2 (by decide)

theorem length_headerLines_le : ∀ line ∈ headerLines, line.length ≤ lineLimit := by
  simp only [headerLines, List.forall_mem_cons, length_separator]
  decide

theorem lays_fileHeader : Lays 0 fileHeader headerLines 0 :=
  .atMargin length_headerLines_le

theorem write_fileHeader : Writer.empty.write fileHeader = (⟨0, headerLines.toArray⟩, none) := by
  rw [lays_fileHeader.write Writer.empty rfl]
  rfl

theorem closed_headerLines : ∀ line ∈ headerLines, Closed line := by
  have hmarker : Unbroken marker := by
    decide +kernel
  simp only [headerLines, List.forall_mem_cons]
  exact ⟨unbroken_separator.closed, hmarker.closed, unbroken_separator.closed,
    List.forall_mem_nil _⟩

/-- The header is found behind lines that are no marker, whatever follows it. -/
theorem markedAt_append_headerLines {kept : List String} (h : marker ∉ kept)
    (rest : List String) : MarkedAt (kept ++ headerLines ++ rest) (kept.length + 1) := by
  constructor
  · simp [headerLines]
  · intro j hj hfound
    rw [List.append_assoc] at hfound
    by_cases hkept : j < kept.length
    · rw [List.getElem?_append_left hkept] at hfound
      exact h (List.mem_of_getElem? hfound)
    · have hlast : j = kept.length := by lia
      rw [hlast, List.getElem?_append_right (Nat.le_refl _), Nat.sub_self] at hfound
      exact separator_ne_marker (Option.some.inj hfound)

/-!
# What is kept
-/

theorem MarkedAt.notMem_take {lines : List String} {m : Nat} (h : MarkedAt lines m) :
    Source.marker ∉ lines.take (m - 1) := by
  intro hmem
  rcases List.mem_iff_getElem?.mp hmem with ⟨j, hj⟩
  rw [List.getElem?_take] at hj
  split at hj
  · exact h.first j (by lia) hj
  · cases hj

theorem MarkedAt.take_sublist_dropLast {lines : List String} {m : Nat} (h : MarkedAt lines m) :
    (lines.take (m - 1)).Sublist lines.dropLast := by
  have hm := (List.getElem?_eq_some_iff.mp h.marker).1
  have htake : lines.take (m - 1) = lines.dropLast.take (m - 1) := by
    rw [List.dropLast_eq_take, List.take_take, Nat.min_eq_left (by lia)]
  rw [htake]
  exact List.take_sublist _ _

theorem joined_subset (lines : List String) : joined lines ⊆ lines := by
  unfold joined
  split
  · exact List.nil_subset _
  · exact List.Subset.refl _

theorem joined_joined (lines : List String) : joined (joined lines) = joined lines := by
  unfold joined
  by_cases h : lines = [""]
  · rw [if_pos h]
    rfl
  · rw [if_neg h, if_neg h]

/-- The last generation wins. An earlier one, whatever it has put behind its header, leaves no
trace in the text, and the same one once more changes nothing. -/
theorem splice_splice {existing : String} (hmarked : marker ∈ Text.lines existing)
    (hends : ¬ ['\r', '\r', '\n'] <:+: existing.toList) {first : List String}
    (hheader : (Writer.empty.write fileHeader).1.lines.toList <+: first) :
    ∃ text, splice existing first = .ok text ∧ splice text first = .ok text ∧
      ∀ second, (∃ result, splice existing second = .ok result) ∧
        splice text second = splice existing second := by
  rcases exists_markedAt hmarked with ⟨m, hm⟩
  rw [write_fileHeader] at hheader
  rcases hheader with ⟨body, rfl⟩
  change ∃ text, splice existing (headerLines ++ body) = .ok text ∧
    splice text (headerLines ++ body) = .ok text ∧ _
  have hfirst := splice_of_markedAt (List.cons_ne_nil _ _ : headerLines ++ body ≠ []) hm
  generalize hkept : joined ((Text.lines existing).take (m - 1)) = kept at hfirst
  have hclosed : ∀ line ∈ kept ++ headerLines, Closed line := by
    intro line hline
    rcases List.mem_append.mp hline with hold | hnew
    · rw [← hkept] at hold
      apply closed_of_mem_linesFrom List.not_mem_nil hends
      exact hm.take_sublist_dropLast.subset (joined_subset _ hold)
    · exact closed_headerLines line hnew
  have hlines : Text.lines (ended (kept ++ (headerLines ++ body))) =
      kept ++ headerLines ++ Text.lines (ended body) := by
    rw [← List.append_assoc, ended_append, lines_ended_append hclosed]
  have hunmarked : marker ∉ kept := by
    rw [← hkept]
    exact fun hmem => hm.notMem_take (joined_subset _ hmem)
  have hagain :
      MarkedAt (Text.lines (ended (kept ++ (headerLines ++ body)))) (kept.length + 1) := by
    rw [hlines]
    exact markedAt_append_headerLines hunmarked _
  have hsecond : ∀ second, splice (ended (kept ++ (headerLines ++ body))) second =
      splice existing second := by
    intro second
    rw [splice_eq_of_markedAt hagain, splice_eq_of_markedAt hm, hlines, Nat.add_sub_cancel,
      List.append_assoc, List.take_left, ← hkept, joined_joined]
  refine ⟨_, hfirst, (hsecond _).trans hfirst, ?_⟩
  intro second
  exact ⟨⟨_, splice_eq_of_markedAt hm second⟩, hsecond second⟩

/-- A text whose lines end in carriage returns, as far as they are written by hand. -/
def carriedText : String :=
  "#include \"x.h\"\r\n\r\n" ++ marker ++ "\nold();\n"

/-- A generated part with a second marker in it. -/
def markedPart : List String :=
  headerLines ++ ["a();", marker, "b();"]

theorem splice_splice_marked_part :
    marker ∈ Text.lines carriedText ∧ ¬ ['\r', '\r', '\n'] <:+: carriedText.toList ∧
      (Writer.empty.write fileHeader).1.lines.toList <+: markedPart ∧
        ∃ text, splice carriedText markedPart = .ok text ∧ splice text markedPart = .ok text ∧
          splice text ["new();"] = .ok "#include \"x.h\"\nnew();\n" := by
  have hmarked : marker ∈ Text.lines carriedText := by
    decide +kernel
  have hends : ¬ ['\r', '\r', '\n'] <:+: carriedText.toList := by
    decide +kernel
  have hheader : (Writer.empty.write fileHeader).1.lines.toList <+: markedPart := by
    rw [write_fileHeader]
    exact List.prefix_append headerLines _
  have hnew : splice carriedText ["new();"] = .ok "#include \"x.h\"\nnew();\n" := by
    decide +kernel
  rcases splice_splice hmarked hends hheader with ⟨text, hfirst, hagain, hsecond⟩
  exact ⟨hmarked, hends, hheader, text, hfirst, hagain, (hsecond _).2.trans hnew⟩

end Source
end JumpHooks
