import JumpHooks.Proofs.Source.Reading
import JumpHooks.Source.Function
import Mathlib.Data.List.TakeWhile

/-!
# The head of a function

The comment and the declaration in front of a body fit if none of their parts is too long: a
declaration is broken before a line gets too long. No line of them is taken for a directive or
for the beginning of a body.
-/

namespace JumpHooks
namespace Source

/-- A line in front of a body that is not too long, and not taken for anything else. -/
structure IsHeadLine (text : String) : Prop where
  length_le : text.length ≤ lineLimit
  directive : Directive.ofLine? text = none
  brace : unindented text ≠ "\x7b"

def Item.IsHead (item : Item) : Prop :=
  ∃ text, item = .line text ∧ IsHeadLine text

/-!
# Beginnings
-/

/-- The first character behind the indentation is none that a directive or a body begins
with. -/
def Begins (text : String) : Prop :=
  ∃ c, (unindented text).toList.head? = some c ∧ c ≠ '#' ∧ c ≠ '\x7b'

theorem Begins.append {text : String} (h : Begins text) (more : String) :
    Begins (text ++ more) := by
  rcases h with ⟨c, hc, hdirective, hbrace⟩
  refine ⟨c, ?_, hdirective, hbrace⟩
  unfold unindented at hc ⊢
  rw [String.toList_ofList] at hc ⊢
  have hne : (text.toList.dropWhile fun c => c == '\t').isEmpty = false := by
    cases hdrop : text.toList.dropWhile fun c => c == '\t' with
    | nil =>
        rw [hdrop] at hc
        cases hc
    | cons c cs => rfl
  rw [String.toList_append, List.dropWhile_append, hne]
  simp [List.head?_append, hc]

theorem Begins.isHeadLine {text : String} (h : Begins text) (hlength : text.length ≤ lineLimit) :
    IsHeadLine text := by
  rcases h with ⟨c, hc, hdirective, hbrace⟩
  constructor
  · exact hlength
  · apply Directive.ofLine?_eq_none
    rw [hc]
    intro heq
    exact hdirective (Option.some.inj heq)
  · intro heq
    rw [heq] at hc
    exact hbrace (Option.some.inj hc).symm

theorem length_le_utf8ByteSize (text : String) : text.length ≤ text.utf8ByteSize := by
  have hchars : ∀ cs : List Char, cs.length ≤ (String.ofList cs).utf8ByteSize := by
    intro cs
    induction cs with
    | nil => exact Nat.zero_le _
    | cons c cs ih =>
        have hsize := c.utf8Size_pos
        rw [String.ofList_cons, String.utf8ByteSize_append, String.utf8ByteSize_singleton,
          List.length_cons]
        lia
  have hlength := hchars text.toList
  rw [String.ofList_toList, String.length_toList] at hlength
  exact hlength

/-!
# Comments
-/

theorem length_of_mem_linesFrom {current cs : List Char} {line : String}
    (h : line ∈ Text.linesFrom current cs) : line.length ≤ current.length + cs.length := by
  have hfinished : ∀ current : List Char,
      (Text.finishedLine current).length ≤ current.length := by
    intro current
    unfold Text.finishedLine
    split
    · rw [← String.length_toList, String.toList_ofList, List.length_reverse]
      exact Nat.le_succ _
    · rw [← String.length_toList, String.toList_ofList, List.length_reverse]
  induction cs generalizing current with
  | nil =>
      unfold Text.linesFrom at h
      split at h
      · exact absurd h List.not_mem_nil
      · rw [List.mem_singleton.mp h, ← String.length_toList, String.toList_ofList,
          List.length_reverse]
        exact Nat.le_refl _
  | cons c cs ih =>
      unfold Text.linesFrom at h
      rw [List.length_cons]
      split at h
      · rcases List.mem_cons.mp h with heq | hmem
        · rw [heq]
          exact Nat.le_trans (hfinished current) (Nat.le_add_right _ _)
        · have hrest := ih hmem
          rw [List.length_nil] at hrest
          lia
      · have hrest := ih h
        rw [List.length_cons] at hrest
        lia

theorem length_of_mem_commentLines {comment line : String} (h : line ∈ commentLines comment) :
    line.length ≤ comment.length := by
  have hline : line ∈ Text.lines comment := by
    unfold commentLines at h
    dsimp only at h
    split at h
    · split at h
      · exact (List.dropLast_sublist _).mem h
      · exact h
    · exact absurd h List.not_mem_nil
  have hlength := length_of_mem_linesFrom hline
  rw [List.length_nil, Nat.zero_add, String.length_toList] at hlength
  exact hlength

/-- A line of a comment, without the blanks around its text. -/
def commentText (line : String) : String :=
  String.ofList (Text.trimRight (" * ".toList ++ Text.trimLeft line.toList))

/-- Trimming leaves what stands in front of a character that is not blank. -/
theorem trimRight_append {before cs : List Char} {c : Char} (hc : Text.isBlank c = false) :
    ∃ rest, Text.trimRight (before ++ c :: cs) = before ++ c :: rest := by
  unfold Text.trimRight
  rw [List.reverse_append, List.reverse_cons, List.append_assoc, List.dropWhile_append]
  split
  · refine ⟨[], ?_⟩
    rw [List.singleton_append, List.dropWhile_cons_of_neg (by simp [hc])]
    simp
  · refine ⟨(cs.reverse.dropWhile Text.isBlank).reverse, ?_⟩
    simp

theorem length_trimRight_le (cs : List Char) : (Text.trimRight cs).length ≤ cs.length := by
  unfold Text.trimRight
  rw [List.length_reverse]
  exact Nat.le_trans (List.dropWhile_sublist _).length_le (Nat.le_of_eq List.length_reverse)

theorem isHeadLine_commentText {line : String} (h : line.length + 3 ≤ lineLimit) :
    IsHeadLine (commentText line) := by
  have hchars : (commentText line).toList =
      Text.trimRight ([' '] ++ '*' :: ' ' :: Text.trimLeft line.toList) := by
    unfold commentText
    rw [String.toList_ofList]
    rfl
  apply Begins.isHeadLine
  · refine ⟨' ', ?_, by decide, by decide⟩
    rcases @trimRight_append [' '] (' ' :: Text.trimLeft line.toList) '*' (by decide) with
      ⟨rest, hrest⟩
    unfold unindented
    rw [String.toList_ofList, hchars, hrest]
    rfl
  · have htrim : (Text.trimLeft line.toList).length ≤ line.length := by
      rw [← String.length_toList]
      exact (List.dropWhile_sublist _).length_le
    have hlength := length_trimRight_le ([' '] ++ '*' :: ' ' :: Text.trimLeft line.toList)
    rw [← String.length_toList, hchars]
    simp only [List.length_append, List.length_cons, List.length_nil] at hlength
    lia

/-- The lines of a comment with its marks. -/
def commentTexts (comment : String) : List String :=
  "/**" :: (commentLines comment).map commentText ++ [" */"]

theorem docComment_eq (comment : String) :
    docComment comment = (commentTexts comment).map .line := by
  unfold docComment commentTexts
  simp [commentText]

theorem docComment_isHead {comment : String} (h : comment.length + 3 ≤ lineLimit) :
    ∀ item ∈ docComment comment, item.IsHead := by
  have hfirst : IsHeadLine "/**" :=
    Begins.isHeadLine ⟨'/', by decide, by decide, by decide⟩ (by decide)
  have hlast : IsHeadLine " */" :=
    Begins.isHeadLine ⟨' ', by decide, by decide, by decide⟩ (by decide)
  intro item hitem
  rcases List.mem_append.mp hitem with hbefore | hend
  · rcases List.mem_cons.mp hbefore with heq | hmem
    · exact ⟨_, heq, hfirst⟩
    · rcases List.mem_map.mp hmem with ⟨line, hline, heq⟩
      refine ⟨commentText line, heq.symm, isHeadLine_commentText ?_⟩
      have hlength := length_of_mem_commentLines hline
      lia
  · exact ⟨_, List.mem_singleton.mp hend, hlast⟩

/-!
# Declarations
-/

/-- What every begun line has, whatever is put on it while there is room, is handed on to the
lines of the declaration. -/
theorem headLines_forall {Begun Ended : String → Prop} {line : String} {first : Bool}
    {params : List String} (hline : Begun line)
    (hindent : ∀ p ∈ params, Begun (Writer.indent ++ p))
    (hput : ∀ line, Begun line → ∀ p ∈ params,
      line.utf8ByteSize + p.utf8ByteSize ≤ declarationLimit →
        Begun (line ++ p) ∧ Begun (line ++ ", " ++ p))
    (hended : ∀ line, Begun line → Ended line ∧ Ended (line ++ ",") ∧ Ended (line ++ ")")) :
    ∀ item ∈ headLines line first params, ∃ text, item = .line text ∧ Ended text := by
  -- On the parameters, for every line that has been begun.
  induction params generalizing line first with
  | nil =>
      intro item hitem
      exact ⟨line ++ ")", List.mem_singleton.mp hitem, (hended line hline).2.2⟩
  | cons p params ih =>
      have hindents := fun q hq => hindent q (List.mem_cons_of_mem _ hq)
      have hputs := fun line hline q hq => hput line hline q (List.mem_cons_of_mem _ hq)
      unfold headLines
      split
      · intro item hitem
        rcases List.mem_cons.mp hitem with heq | hmem
        · refine ⟨_, heq, ?_⟩
          cases first with
          | true => exact (hended line hline).1
          | false => exact (hended line hline).2.1
        · exact ih (hindent p List.mem_cons_self) hindents hputs item hmem
      · rename_i hfits
        have hboth := hput line hline p List.mem_cons_self (Nat.not_lt.mp hfits)
        refine ih ?_ hindents hputs
        cases first with
        | true => exact hboth.1
        | false => exact hboth.2

section Room

variable {line p : String}

theorem utf8ByteSize_indent (h : p.utf8ByteSize + 2 ≤ lineLimit) :
    (Writer.indent ++ p).utf8ByteSize < lineLimit := by
  have hindent : Writer.indent.utf8ByteSize = 1 := by decide
  rw [String.utf8ByteSize_append, hindent]
  lia

/-- The rest of a line is enough for the separator in front of what is put on it. -/
theorem utf8ByteSize_put (h : line.utf8ByteSize + p.utf8ByteSize ≤ declarationLimit) :
    (line ++ p).utf8ByteSize < lineLimit ∧ (line ++ ", " ++ p).utf8ByteSize < lineLimit := by
  have hseparator : ", ".utf8ByteSize = 2 := by decide
  rw [String.utf8ByteSize_append, String.utf8ByteSize_append, String.utf8ByteSize_append,
    hseparator]
  unfold declarationLimit lineLimit at *
  lia

theorem utf8ByteSize_ended (h : line.utf8ByteSize < lineLimit) :
    line.utf8ByteSize ≤ lineLimit ∧ (line ++ ",").utf8ByteSize ≤ lineLimit ∧
      (line ++ ")").utf8ByteSize ≤ lineLimit := by
  have hcomma : ",".utf8ByteSize = 1 := by decide
  have hend : ")".utf8ByteSize = 1 := by decide
  rw [String.utf8ByteSize_append, String.utf8ByteSize_append, hcomma, hend]
  exact ⟨h.le, h, h⟩

end Room

/-- A line is broken in time if what is put on it fits on a line of its own. -/
theorem headLines_short {line : String} {first : Bool} {params : List String}
    (hsize : line.utf8ByteSize < lineLimit)
    (hparams : ∀ p ∈ params, p.utf8ByteSize + 2 ≤ lineLimit) :
    ∀ item ∈ headLines line first params,
      ∃ text, item = .line text ∧ text.utf8ByteSize ≤ lineLimit := by
  refine @headLines_forall (fun line => line.utf8ByteSize < lineLimit) _ _ _ _ hsize ?_ ?_ ?_
  · intro p hp
    exact utf8ByteSize_indent (hparams p hp)
  · intro line _ p _ hfits
    exact utf8ByteSize_put hfits
  · intro line hline
    exact utf8ByteSize_ended hline

theorem headLines_isHead {line : String} {first : Bool} {params : List String}
    (hline : Begins line) (hsize : line.utf8ByteSize < lineLimit)
    (hparams : ∀ p ∈ params, Begins (Writer.indent ++ p) ∧ p.utf8ByteSize + 2 ≤ lineLimit) :
    ∀ item ∈ headLines line first params, item.IsHead := by
  have hbegins : ∀ item ∈ headLines line first params,
      ∃ text, item = .line text ∧ Begins text := by
    apply headLines_forall hline
    · intro p hp
      exact (hparams p hp).1
    · intro line hline p _ _
      exact ⟨hline.append p, (hline.append ", ").append p⟩
    · intro line hline
      exact ⟨hline, hline.append ",", hline.append ")"⟩
  intro item hitem
  rcases headLines_short hsize (fun p hp => (hparams p hp).2) item hitem with
    ⟨text, heq, hshort⟩
  rcases hbegins item hitem with ⟨other, hother, htext⟩
  cases heq.symm.trans hother
  exact ⟨text, heq, htext.isHeadLine ((length_le_utf8ByteSize text).trans hshort)⟩

theorem exists_headTexts {items : List Item} (h : ∀ item ∈ items, item.IsHead) :
    ∃ texts : List String, items = texts.map .line ∧ Lays 0 items texts 0 ∧
      (∀ l ∈ texts, Directive.ofLine? l = none) ∧ ∀ l ∈ texts, unindented l ≠ "\x7b" := by
  induction items with
  | nil => exact ⟨[], rfl, .nil 0, by simp, by simp⟩
  | cons item items ih =>
      rcases h item List.mem_cons_self with ⟨text, heq, htext⟩
      rcases ih fun other hother => h other (List.mem_cons_of_mem _ hother) with
        ⟨texts, hitems, hlays, hdirectives, hbraces⟩
      have hline := congrArg some (Writer.indented_zero text)
      rw [heq]
      refine ⟨text :: texts, by rw [hitems, List.map_cons],
        .cons hline htext.length_le hlays, ?_, ?_⟩
      · intro l hl
        rcases List.mem_cons.mp hl with hfirst | hmem
        · rw [hfirst]
          exact htext.directive
        · exact hdirectives l hmem
      · intro l hl
        rcases List.mem_cons.mp hl with hfirst | hmem
        · rw [hfirst]
          exact htext.brace
        · exact hbraces l hmem

end Source
end JumpHooks
