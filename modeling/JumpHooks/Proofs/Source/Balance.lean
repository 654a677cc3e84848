import JumpHooks.Proofs.Source.Layout
import JumpHooks.Proofs.Source.Splicing
import JumpHooks.Source.Function
import Mathlib.Data.List.Forall2

/-!
# Items that lead back to their indentation

Every block of a function is closed again, so each function is written from the margin, whatever
was written before it. A writer that goes from one function to the next writes what it would
write for each of them alone.
-/

namespace JumpHooks
namespace Source

/-!
# Writing and laying out
-/

theorem Writer.step_eq_none_iff {w w' : Writer} {item : Item} :
    w.step item = (w', none) ↔ ∃ line, item.line? w.level = some line ∧
      line.length ≤ lineLimit ∧ w' = ⟨item.levelAfter w.level, w.lines.push line⟩ := by
  constructor
  · intro h
    cases hline : item.line? w.level with
    | none =>
        cases item <;> cases hline
        cases h
    | some line =>
        by_cases hlength : line.length ≤ lineLimit
        · rw [step_eq hline hlength] at h
          exact ⟨line, rfl, hlength, (Prod.mk.inj h).1.symm⟩
        · have hlong : lineLimit < line.length := Nat.not_le.mp hlength
          cases item <;> cases hline <;> simp [step, push, hlong] at h
  · intro h
    rcases h with ⟨line, hline, hlength, rfl⟩
    exact step_eq hline hlength

/-- Items are written without a fault exactly if they can be laid out. -/
theorem Writer.write_eq_none_iff {w w' : Writer} {items : List Item} :
    w.write items = (w', none) ↔ ∃ lines, Lays w.level items lines w'.level ∧
      w'.lines = w.lines ++ lines.toArray := by
  constructor
  · intro h
    induction items generalizing w with
    | nil =>
        cases h
        exact ⟨[], .nil _, by simp⟩
    | cons item items ih =>
        unfold write at h
        split at h
        · rename_i next hstep
          rcases step_eq_none_iff.mp hstep with ⟨line, hline, hlength, rfl⟩
          rcases ih h with ⟨lines, hlays, hlines⟩
          exact ⟨line :: lines, .cons hline hlength hlays, by simp [hlines]⟩
        · cases h
  · intro h
    rcases h with ⟨lines, hlays, hlines⟩
    rw [hlays.write w rfl, ← hlines]

/-- The items are written on lines of their own, from the margin and back to it. -/
theorem Writer.write_empty_iff {items : List Item} {lines : List String} :
    Writer.empty.write items = (⟨0, lines.toArray⟩, none) ↔ Lays 0 items lines 0 := by
  rw [write_eq_none_iff]
  constructor
  · intro h
    rcases h with ⟨written, hlays, hlines⟩
    rw [show lines = written by simpa [Writer.empty] using hlines]
    exact hlays
  · intro h
    exact ⟨lines, h, by simp [Writer.empty]⟩

namespace Lays

variable {level after : Nat} {items more : List Item} {lines : List String}

theorem append_iff : Lays level (items ++ more) lines after ↔
    ∃ front back middle, lines = front ++ back ∧ Lays level items front middle ∧
      Lays middle more back after := by
  constructor
  · intro h
    induction items generalizing level lines with
    | nil => exact ⟨[], lines, level, rfl, .nil level, h⟩
    | cons item items ih =>
        cases h with
        | cons hline hlength hrest =>
            rcases ih hrest with ⟨front, back, middle, rfl, hfront, hback⟩
            exact ⟨_ :: front, back, middle, rfl, .cons hline hlength hfront, hback⟩
  · intro h
    rcases h with ⟨front, back, middle, rfl, hfront, hback⟩
    exact hfront.append hback

theorem after_eq (h : Lays level items lines after) :
    after = items.foldl Item.levelAfter level := by
  induction h with
  | nil => rfl
  | cons _ _ _ ih => exact ih

end Lays

/-!
# Balance
-/

/-- The items lead back to the indentation that they begin at. -/
def Balanced (items : List Item) : Prop :=
  ∀ level, items.foldl Item.levelAfter level = level

namespace Balanced

variable {items more : List Item}

@[simp] theorem nil : Balanced [] :=
  fun _ => rfl

@[simp] theorem line_cons {text : String} : Balanced (.line text :: items) ↔ Balanced items :=
  Iff.rfl

@[simp] theorem margin_cons {text : String} :
    Balanced (.margin text :: items) ↔ Balanced items :=
  Iff.rfl

@[simp] theorem missing_cons {what : String} :
    Balanced (.missing what :: items) ↔ Balanced items :=
  Iff.rfl

theorem append (h : Balanced items) (hmore : Balanced more) : Balanced (items ++ more) := by
  intro level
  rw [List.foldl_append, h, hmore]

theorem block (h : Balanced items) (first last : String) :
    Balanced (.opening first :: items ++ [.closing last]) := by
  intro level
  have hinside := h (level + 1)
  simp [Item.levelAfter, hinside]

theorem map_line {α : Type} (f : α → String) (xs : List α) :
    Balanced (xs.map fun x => .line (f x)) := by
  induction xs with
  | nil => exact nil
  | cons x xs ih => exact line_cons.mpr ih

theorem flatMap {α : Type} {f : α → List Item} (h : ∀ x, Balanced (f x)) (xs : List α) :
    Balanced (xs.flatMap f) := by
  induction xs with
  | nil => exact nil
  | cons x xs ih => exact (h x).append ih

end Balanced

/-- Balanced items are written from the margin back to it, or have a fault. -/
theorem Balanced.write_empty {items : List Item} (h : Balanced items) :
    (∃ lines : List String, Writer.empty.write items = (⟨0, lines.toArray⟩, none)) ∨
      ∃ w fault, Writer.empty.write items = (w, some fault) := by
  cases hwrite : Writer.empty.write items with
  | mk w fault =>
      cases fault with
      | some fault => exact .inr ⟨w, fault, rfl⟩
      | none =>
          rcases Writer.write_eq_none_iff.mp hwrite with ⟨lines, hlays, _⟩
          rw [hlays.after_eq.trans (h _)] at hlays
          exact .inl ⟨lines, hwrite.symm.trans (Writer.write_empty_iff.mpr hlays)⟩

/-- Balanced items are laid out one after the other, each where the first begins. -/
theorem lays_flatMap_iff {α : Type} {f : α → List Item} (hf : ∀ x, Balanced (f x))
    {level after : Nat} {xs : List α} {lines : List String} :
    Lays level (xs.flatMap f) lines after ↔ after = level ∧
      ∃ parts, List.Forall₂ (fun x part => Lays level (f x) part level) xs parts ∧
        lines = parts.flatten := by
  induction xs generalizing lines with
  | nil =>
      constructor
      · intro h
        cases h
        exact ⟨rfl, [], .nil, rfl⟩
      · intro h
        rcases h with ⟨rfl, parts, hparts, rfl⟩
        cases hparts
        exact .nil _
  | cons x xs ih =>
      rw [List.flatMap_cons, Lays.append_iff]
      constructor
      · intro h
        rcases h with ⟨front, back, middle, rfl, hfront, hback⟩
        have hmiddle := hfront.after_eq.trans (hf x level)
        rw [hmiddle] at hfront hback
        rcases ih.mp hback with ⟨hafter, parts, hparts, rfl⟩
        exact ⟨hafter, front :: parts, .cons hfront hparts, rfl⟩
      · intro h
        rcases h with ⟨hafter, parts, hparts, rfl⟩
        rcases List.forall₂_cons_left_iff.mp hparts with ⟨front, rest, hfront, hrest, rfl⟩
        exact ⟨front, rest.flatten, level, rfl, hfront, ih.mpr ⟨hafter, rest, hrest, rfl⟩⟩

/-!
# Functions
-/

theorem balanced_headLines (line : String) (first : Bool) (params : List String) :
    Balanced (headLines line first params) := by
  induction params generalizing line first with
  | nil => exact Balanced.line_cons.mpr Balanced.nil
  | cons p params ih =>
      unfold headLines
      split
      · exact Balanced.line_cons.mpr (ih _ _)
      · exact ih _ _

theorem balanced_docComment (comment : String) : Balanced (docComment comment) := by
  unfold docComment
  rw [List.cons_append, Balanced.line_cons]
  exact (Balanced.map_line _ _).append (by simp)

theorem balanced_switchCases (branches : List Branch) : Balanced (switchCases branches) := by
  apply Balanced.flatMap
  intro b
  have hlabels : Balanced (b.builds.map fun build => .line s!"case {build}:") :=
    Balanced.map_line _ _
  have hstatements : Balanced (b.statements.map .line ++ [.line "break;"]) :=
    (Balanced.map_line id _).append (by simp)
  unfold branchItems
  simpa using hlabels.append (hstatements.block "\x7b" "\x7d")

theorem balanced_byteArray (s : HookStub) (name : String) : Balanced (byteArray s name) :=
  (Balanced.map_line _ s.body).block _ _

theorem balanced_byBitness {wide narrow : List Item} (hwide : Balanced wide)
    (hnarrow : Balanced narrow) : Balanced (byBitness wide narrow) := by
  unfold byBitness
  simpa using hwide.append (Balanced.margin_cons.mpr (hnarrow.append
    (Balanced.margin_cons.mpr Balanced.nil)))

theorem balanced_hookItems (p : Patch) (b : Bitness) : Balanced (hookItems p b) := by
  unfold hookItems
  split
  · exact Balanced.missing_cons.mpr Balanced.nil
  · exact (balanced_byteArray _ _).append (by simp)

/-- Whatever is in a patch, its function ends at the margin again. -/
theorem balanced_patchItems (p : Patch) : Balanced (patchItems p) := by
  have hhooks : Balanced (hooksItems p) := by
    unfold hooksItems
    split
    · exact Balanced.nil
    · exact (balanced_byBitness (balanced_hookItems p .x64) (balanced_hookItems p .x86)).append
        (by simp)
  have hswitch : Balanced (switchItems p) := by
    have hcases := (balanced_byBitness (balanced_switchCases p.x64)
      (balanced_switchCases p.x86)).block "\x7b" "\x7d"
    simpa [switchItems] using hcases
  have hhead := (balanced_docComment p.doc).append
    (balanced_headLines ("void " ++ p.functionName ++ "(") true p.params)
  have hbody := (hhooks.append hswitch).block "\x7b" "\x7d"
  unfold patchItems functionHead
  simpa using hhead.append hbody

/-!
# Headers
-/

/-- The lines in front of the patches of a subsystem. -/
def subsystemLines (s : Subsystem) : List String :=
  ["", separator, "// " ++ s.name, separator]

theorem lays_subsystemHeader (s : Subsystem) :
    Lays 0 (subsystemHeader s) (subsystemLines s) 0 := by
  have hname : ("// " ++ s.name).length ≤ lineLimit := by
    cases s <;> decide
  have hlines : ∀ line ∈ subsystemLines s, line.length ≤ lineLimit := by
    simp only [subsystemLines, List.forall_mem_cons, length_separator]
    exact ⟨Nat.zero_le _, by decide, hname, by decide, List.forall_mem_nil _⟩
  exact .atMargin hlines

end Source
end JumpHooks
