import JumpHooks.Bitness
import JumpHooks.Patch.Cases
import JumpHooks.Proofs.Source.Layout

/-!
# Reading source text

A reader of patch functions, which knows nothing of how they were written: it keeps the lines
that one instruction set compiles, and takes from them the array, the statements behind it and
the body of the switch. What a switch does is defined on its clauses.
-/

namespace JumpHooks
namespace Source

/-!
# Conditional compilation
-/

inductive Directive where
  | ifWide
  | otherwise
  | done
deriving DecidableEq

def Directive.ofLine? (line : String) : Option Directive :=
  if unindented line = "#ifdef BUILD_64BIT" then
    some .ifWide
  else if unindented line = "#else" then
    some .otherwise
  else if unindented line = "#endif" then
    some .done
  else
    none

/-- The lines that are compiled for an instruction set. Conditions do not stand inside each
other; `kept` says whether the part that has been begun counts. -/
def compiled (b : Bitness) : (kept : Bool) → List String → List String
  | _, [] => []
  | kept, line :: lines =>
      match Directive.ofLine? line with
      | some .ifWide => compiled b b.is64Bit lines
      | some .otherwise => compiled b (!kept) lines
      | some .done => compiled b true lines
      | none => if kept then line :: compiled b kept lines else compiled b kept lines

/-- The lines in front of the first one with this text, and the lines behind it. -/
def cut? (text : String) : List String → Option (List String × List String)
  | [] => none
  | line :: lines =>
      if unindented line = text then
        some ([], lines)
      else
        (cut? text lines).map fun (before, behind) => (line :: before, behind)

/-!
# Arrays
-/

/-- A line of an array of bytes. -/
structure Row where
  bytes : List UInt8
  /-- The number of characters in front of the comment. -/
  column : Nat
  comment : String

def hexDigit? (c : Char) : Option Nat :=
  if '0' ≤ c ∧ c ≤ '9' then
    some (c.toNat - '0'.toNat)
  else if 'a' ≤ c ∧ c ≤ 'f' then
    some (c.toNat - 'a'.toNat + 10)
  else
    none

/-- Bytes of two digits, each with a comma behind it. -/
def bytes? : List Char → Option (List UInt8)
  | [] => some []
  | '0' :: 'x' :: high :: low :: ',' :: cs => do
      return UInt8.ofNat (16 * (← hexDigit? high) + (← hexDigit? low)) :: (← bytes? cs)
  | c :: cs => if c = ' ' ∨ c = '\t' then bytes? cs else none

/-- The characters in front of a comment, and the comment. -/
def comment? (cs : List Char) : Option (List Char × List Char) :=
  match cs.dropWhile fun c => c != '/' with
  | '/' :: '/' :: comment => some (cs.takeWhile fun c => c != '/', comment)
  | _ => none

def Row.ofLine? (line : String) : Option Row :=
  (comment? line.toList).bind fun (before, comment) =>
    (bytes? before).map fun bytes => ⟨bytes, before.length, String.ofList comment⟩

/-!
# Switches
-/

/-- A line in the body of a switch. -/
inductive Clause where
  | label (build : Nat)
  | opening
  | closing
  | leave
  | statement (text : String)
deriving DecidableEq

namespace Clause

/-- The number of a case label. -/
def number? : List Char → Option Nat
  | 'c' :: 'a' :: 's' :: 'e' :: ' ' :: cs =>
      if cs.dropWhile Char.isDigit = [':'] ∧ cs.takeWhile Char.isDigit ≠ [] then
        some (Nat.ofDigitChars 10 (cs.takeWhile Char.isDigit) 0)
      else
        none
  | _ => none

def ofText (text : String) : Clause :=
  if text = "\x7b" then
    .opening
  else if text = "\x7d" then
    .closing
  else if text = "break;" then
    .leave
  else
    match number? text.toList with
    | some build => .label build
    | none => .statement text

/-- The branches of a switch at the end of a function: labels and a block for each, which ends
with the only `break` in it. The labels of the next block are collected in `builds`, its
statements in `block` when it has been opened. -/
def branches? (builds : List Nat) (block : Option (List String)) :
    List Clause → Option (List Branch)
  | [] => none
  | clause :: clauses =>
      match block, clause with
      | none, .label build => branches? (builds ++ [build]) none clauses
      | none, .opening => if builds = [] then none else branches? builds (some []) clauses
      | none, .closing => if builds = [] ∧ clauses = [.closing] then some [] else none
      | some statements, .statement text =>
          branches? builds (some (statements ++ [text])) clauses
      | some statements, .leave =>
          match clauses with
          | .closing :: others =>
              (branches? [] none others).map fun rest => ⟨builds, statements⟩ :: rest
          | _ => none
      | _, _ => none

/-- The statements from a place in a switch up to the next `break`. Labels and braces do
nothing. -/
def run : List Clause → List String
  | [] => []
  | .statement text :: clauses => text :: run clauses
  | .leave :: _ => []
  | _ :: clauses => run clauses

/-- What a switch does for a build. -/
def select (build : Nat) (clauses : List Clause) : List String :=
  run (clauses.dropWhile fun c => c != .label build)

end Clause

/-!
# Functions
-/

/-- What a function says: the array with the statements behind it, if there is one, and the
body of the switch with everything behind it. -/
structure Reading where
  hook : Option (List Row × List String)
  clauses : List Clause

/-- Reads what stands in front of the switch. -/
def hook? : List String → Option (Option (List Row × List String))
  | [] => some none
  | first :: lines =>
      if unindented first = "unsigned char code[] = \x7b" then
        (cut? "\x7d;" lines).bind fun (array, behind) =>
          (array.mapM Row.ofLine?).map fun rows =>
            some (rows, (behind.map unindented).filter fun text => text != "")
      else
        none

def read? (lines : List String) : Option Reading :=
  (cut? "\x7b" lines).bind fun (_, body) =>
    (cut? "switch (gameBuild)" body).bind fun (setup, switch) =>
      (cut? "\x7b" switch).bind fun (front, clauses) =>
        if front = [] then
          (hook? setup).map fun hook =>
            ⟨hook, clauses.map fun l => Clause.ofText (unindented l)⟩
        else
          none

/-!
# Lines that are kept
-/

theorem Directive.ofLine?_eq_none {line : String}
    (h : (unindented line).toList.head? ≠ some '#') : Directive.ofLine? line = none := by
  unfold Directive.ofLine?
  have hne : ∀ text : String, text.toList.head? = some '#' → unindented line ≠ text := by
    intro text htext heq
    rw [heq] at h
    exact h htext
  rw [if_neg (hne _ rfl), if_neg (hne _ rfl), if_neg (hne _ rfl)]

theorem compiled_cons {b : Bitness} {line : String} (h : Directive.ofLine? line = none)
    (lines : List String) : compiled b true (line :: lines) = line :: compiled b true lines := by
  rw [compiled, h]
  rfl

theorem compiled_append {b : Bitness} {kept : Bool} {lines : List String}
    (h : ∀ l ∈ lines, Directive.ofLine? l = none) (rest : List String) :
    compiled b kept (lines ++ rest) =
      (if kept then lines else []) ++ compiled b kept rest := by
  induction lines with
  | nil => cases kept <;> rfl
  | cons line lines ih =>
      have hrest := ih fun l hl => h l (List.mem_cons_of_mem _ hl)
      rw [List.cons_append, compiled, h line List.mem_cons_self]
      dsimp only
      rw [hrest]
      cases kept <;> rfl

/-- One of two parts is compiled, and then what stands behind both. -/
theorem compiled_parts (b : Bitness) {wide narrow : List String}
    (hwide : ∀ l ∈ wide, Directive.ofLine? l = none)
    (hnarrow : ∀ l ∈ narrow, Directive.ofLine? l = none) (rest : List String) :
    compiled b true ("#ifdef BUILD_64BIT" ::
      (wide ++ "#else" :: (narrow ++ "#endif" :: rest))) =
        (if b.is64Bit then wide else narrow) ++ compiled b true rest := by
  have hif : Directive.ofLine? "#ifdef BUILD_64BIT" = some .ifWide := by decide
  have helse : Directive.ofLine? "#else" = some .otherwise := by decide
  have hendif : Directive.ofLine? "#endif" = some .done := by decide
  rw [compiled, hif]
  dsimp only
  rw [compiled_append hwide, compiled, helse]
  dsimp only
  rw [compiled_append hnarrow, compiled, hendif]
  cases b <;> rfl

theorem cut?_eq {text line : String} {before : List String}
    (hbefore : ∀ l ∈ before, unindented l ≠ text) (hline : unindented line = text)
    (behind : List String) : cut? text (before ++ line :: behind) = some (before, behind) := by
  induction before with
  | nil =>
      show cut? text (line :: behind) = _
      rw [cut?, if_pos hline]
  | cons first before ih =>
      rw [List.cons_append, cut?, if_neg (hbefore first List.mem_cons_self),
        ih fun l hl => hbefore l (List.mem_cons_of_mem _ hl)]
      rfl

end Source
end JumpHooks
