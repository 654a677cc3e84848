import JumpHooks.Source.Writer

/-!
# How items are laid out

Items that are all there, and whose lines are not too long, are written without a fault. Their
lines depend only on the indentation that the items begin at.
-/

namespace JumpHooks
namespace Source

/-!
# Indentation
-/

/-- A line without the tabs in front of it. -/
def unindented (line : String) : String :=
  String.ofList (line.toList.dropWhile fun c => c == '\t')

namespace Writer

theorem toList_indented {level : Nat} {text : String} (h : text ≠ "") :
    (indented level text).toList = List.replicate level '\t' ++ text.toList := by
  have htabs : (String.join (List.replicate level indent)).toList =
      List.replicate level '\t' := by
    induction level with
    | zero => rfl
    | succ level ih =>
        rw [List.replicate_succ, String.join_cons, String.toList_append, ih]
        rfl
  unfold indented
  rw [if_neg (by simpa using h), String.toList_append, htabs]

theorem length_indented_le (level : Nat) (text : String) :
    (indented level text).length ≤ level + text.length := by
  by_cases h : text = ""
  · rw [h]
    exact Nat.zero_le _
  · apply Nat.le_of_eq
    rw [← String.length_toList, toList_indented h, List.length_append, List.length_replicate,
      String.length_toList]

@[simp] theorem indented_zero (text : String) : indented 0 text = text := by
  unfold indented
  split
  · rename_i h
    exact (String.isEmpty_iff.mp h).symm
  · exact String.empty_append

theorem map_indented_zero (texts : List String) : texts.map (indented 0) = texts := by
  rw [funext indented_zero]
  exact List.map_id texts

theorem unindented_indented {level : Nat} {text : String}
    (h : text.toList.head? ≠ some '\t') : unindented (indented level text) = text := by
  have htext : text.toList.dropWhile (fun c => c == '\t') = text.toList := by
    cases htext : text.toList with
    | nil => rfl
    | cons c cs =>
        rw [htext] at h
        exact List.dropWhile_cons_of_neg (by simpa using h)
  by_cases hempty : text = ""
  · rw [hempty]
    rfl
  · unfold unindented
    rw [toList_indented hempty, List.dropWhile_append_of_pos (by simp), htext,
      String.ofList_toList]

theorem map_unindented {level : Nat} {texts : List String}
    (h : ∀ text ∈ texts, text.toList.head? ≠ some '\t') :
    (texts.map (indented level)).map unindented = texts := by
  rw [List.map_map]
  exact (List.map_congr_left fun text htext => unindented_indented (h text htext)).trans
    (List.map_id texts)

end Writer

/-!
# Layouts
-/

namespace Item

def line? (level : Nat) : Item → Option String
  | .line text => some (Writer.indented level text)
  | .margin text => some text
  | .opening text => some (Writer.indented level text)
  | .closing text => some (Writer.indented (level - 1) text)
  | .missing _ => none

def levelAfter (level : Nat) : Item → Nat
  | .opening _ => level + 1
  | .closing _ => level - 1
  | _ => level

end Item

/-- The items take these lines, none of which is too long, and lead to another indentation. -/
inductive Lays : (level : Nat) → List Item → List String → (after : Nat) → Prop
  | nil (level : Nat) : Lays level [] [] level
  | cons {level after : Nat} {item : Item} {items : List Item} {line : String}
      {lines : List String} (hline : item.line? level = some line)
      (hlength : line.length ≤ lineLimit)
      (hrest : Lays (item.levelAfter level) items lines after) :
      Lays level (item :: items) (line :: lines) after

theorem Writer.step_eq {w : Writer} {item : Item} {line : String}
    (hline : item.line? w.level = some line) (hlength : line.length ≤ lineLimit) :
    w.step item = (⟨item.levelAfter w.level, w.lines.push line⟩, none) := by
  have hshort : ¬ lineLimit < line.length := Nat.not_lt.mpr hlength
  cases item with
  | missing what => cases hline
  | line text =>
      cases hline
      simp [step, push, hshort, Item.levelAfter]
  | margin text =>
      cases hline
      simp [step, push, hshort, Item.levelAfter]
  | opening text =>
      cases hline
      simp [step, push, hshort, Item.levelAfter]
  | closing text =>
      cases hline
      simp [step, push, hshort, Item.levelAfter]

namespace Lays

variable {level middle after : Nat} {items more : List Item} {lines others : List String}

theorem write (h : Lays level items lines after) (w : Writer) (hlevel : w.level = level) :
    w.write items = (⟨after, w.lines ++ lines.toArray⟩, none) := by
  -- On the layout, for every writer at its indentation.
  induction h generalizing w with
  | nil level =>
      rw [← hlevel]
      simp [Writer.write]
  | cons hline hlength hrest ih =>
      rw [← hlevel] at hline
      unfold Writer.write
      rw [Writer.step_eq hline hlength]
      dsimp only
      rw [ih _ (by rw [hlevel])]
      simp

theorem length_le (h : Lays level items lines after) :
    ∀ line ∈ lines, line.length ≤ lineLimit := by
  induction h with
  | nil => simp
  | cons _ hlength _ ih =>
      intro line hline
      rcases List.mem_cons.mp hline with heq | hmem
      · rw [heq]
        exact hlength
      · exact ih line hmem

theorem append (h : Lays level items lines middle) (hmore : Lays middle more others after) :
    Lays level (items ++ more) (lines ++ others) after := by
  induction h with
  | nil => exact hmore
  | cons hline hlength _ ih => exact cons hline hlength (ih hmore)

theorem line (text : String) (h : level + text.length ≤ lineLimit) :
    Lays level [.line text] [Writer.indented level text] level :=
  cons rfl (Nat.le_trans (Writer.length_indented_le level text) h) (nil level)

theorem margin (text : String) (h : text.length ≤ lineLimit) :
    Lays level [.margin text] [text] level :=
  cons rfl h (nil level)

/-- Lines stand at the indentation that they begin at. -/
theorem ofLines {texts : List String} (h : ∀ text ∈ texts, level + text.length ≤ lineLimit) :
    Lays level (texts.map .line) (texts.map (Writer.indented level)) level := by
  induction texts with
  | nil => exact nil level
  | cons text texts ih =>
      exact (line text (h text List.mem_cons_self)).append
        (ih fun other hother => h other (List.mem_cons_of_mem _ hother))

theorem atMargin {texts : List String} (h : ∀ text ∈ texts, text.length ≤ lineLimit) :
    Lays 0 (texts.map .line) texts 0 := by
  have hlines := @ofLines 0 texts fun text htext => by
    rw [Nat.zero_add]
    exact h text htext
  rwa [Writer.map_indented_zero] at hlines

/-- A block comes back to the indentation that it is opened at. -/
theorem block (first last : String) (hfirst : level + first.length ≤ lineLimit)
    (hlast : level + last.length ≤ lineLimit) (h : Lays (level + 1) items lines (level + 1)) :
    Lays level (.opening first :: items ++ [.closing last])
      (Writer.indented level first :: lines ++ [Writer.indented level last]) level :=
  cons rfl (Nat.le_trans (Writer.length_indented_le level first) hfirst)
    (h.append (cons rfl (Nat.le_trans (Writer.length_indented_le level last) hlast) (nil level)))

end Lays

end Source
end JumpHooks
