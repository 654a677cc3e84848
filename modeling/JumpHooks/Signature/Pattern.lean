import JumpHooks.Code.Subroutine

/-!
# Patterns

A pattern describes one subroutine of one instruction set. The search begins at a literal
anchor instruction; every subroutine around an anchor is then held against rules, each about
one instruction counted from the anchor. What may vary between builds is only what the rules
leave open.
-/

namespace JumpHooks

/-- An instruction of a window, counted from either end; `fromEnd 1` is the last one. -/
inductive Position where
  | fromStart (index : Nat)
  | fromEnd (count : Nat)
deriving DecidableEq, Repr

namespace Position

/-- The instruction in this position. Asking for the place after the last instruction is a
mistake in the pattern and not a failed match. -/
def resolve (window : List Placed) : Position → Except Error (Option Placed)
  | fromStart i => .ok window[i]?
  | fromEnd n =>
      if n ≤ window.length then
        match window[window.length - n]? with
        | some p => .ok (some p)
        | none => .error .placeOutOfRange
      else
        .ok none

end Position

/-- A test of one instruction. -/
inductive Predicate where
  /-- The same instruction, wherever it stands. -/
  | exact (instruction : Instruction)
  /-- The same form, whatever its operands. -/
  | form (form : Form)
  /-- The operand with this number is this register. No operand is the absent register. -/
  | register (operand : Nat) (register : Option Register)
  /-- A near branch to the instruction in this position. -/
  | branch (position : Position)
deriving DecidableEq, Repr

namespace Predicate

def isRegister (i : Instruction) (operand : Nat) (register : Option Register) : Bool :=
  match i.operands[operand]?, register with
  | some (.register r), some expected => r == expected
  | _, _ => false

/-- Whether a branch to `target` reaches the instruction in a position. -/
def reaches (window : List Placed) (target : UInt64) (position : Position) :
    Except Error Bool := do
  match ← position.resolve window with
  | none => return false
  | some p => return p.address == target

/-- The test of the instruction number `index` of a window. It fails outside the window. -/
def holds (window : List Placed) (index : Nat) (predicate : Predicate) : Except Error Bool :=
  match window[index]? with
  | none => .ok false
  | some p =>
      match predicate with
      | exact i => .ok (p.instruction == i)
      | form f => .ok (p.instruction.form == f)
      | register operand r => .ok (isRegister p.instruction operand r)
      | branch position =>
          match p.instruction.target? with
          | none => .ok false
          | some target => reaches window target position

end Predicate

structure Rule where
  index : Nat
  predicate : Predicate
deriving DecidableEq, Repr

namespace Rule

def holds (window : List Placed) (r : Rule) : Except Error Bool :=
  r.predicate.holds window r.index

/-- The first rule that fails, with its number, counting from `number`. -/
def firstFailure (window : List Placed) : (number : Nat) → List Rule →
    Except Error (Option Rejection)
  | _, [] => .ok none
  | number, r :: rules => do
      if ← r.holds window then
        firstFailure window (number + 1) rules
      else
        return some (.rule number r.index)

end Rule

structure Pattern where
  anchor : Instruction
  /-- How far behind the start of the subroutine the anchor may stand. -/
  offsets : List Nat
  /-- The least number of instructions of the whole subroutine. -/
  minimum : Nat
  rules : List Rule
deriving DecidableEq, Repr

namespace Pattern

/-- Checks a subroutine that was found from the anchor number `anchor`; the result is the
reason to reject it, or none. -/
def check (p : Pattern) (v : Variant) (s : Subroutine) (anchor : Nat) :
    Except Error (Option Rejection) :=
  if anchor < s.start then
    .error .placeOutOfRange
  else if !p.offsets.contains (anchor - s.start) then
    .ok (some (.anchor (anchor - s.start)))
  else if s.size < p.minimum then
    .ok (some (.tooShort s.size))
  else if s.stop < anchor then
    .error .placeOutOfRange
  else
    Rule.firstFailure (v.slice anchor s.stop) 0 p.rules

/-- The instructions that are equal to the anchor. -/
def anchors (p : Pattern) (v : Variant) : List Nat :=
  v.instructions.toList.zipIdx.filterMap fun (i, index) =>
    if i.instruction = p.anchor then some index else none

/-- The subroutine around each anchor with the result of its check, in address order. -/
def checks (p : Pattern) (v : Variant) :
    List (Subroutine × Except Error (Option Rejection)) :=
  (p.anchors v).map fun index =>
    let s := v.subroutineAt index
    (s, p.check v s index)

/-- Subroutines without repetitions next to each other. -/
def withoutRepeats : List Subroutine → List Subroutine
  | [] => []
  | s :: rest =>
      match withoutRepeats rest with
      | [] => [s]
      | t :: others => if s.start = t.start then s :: others else s :: t :: others

/-- The subroutine of a check that found no reason to reject it. -/
def accepted : Subroutine × Except Error (Option Rejection) →
    Except Error (Option Subroutine)
  | (_, .error e) => .error e
  | (s, .ok none) => .ok (some s)
  | (_, .ok (some _)) => .ok none

/-- Every subroutine that satisfies the pattern, once, in address order. -/
def candidates (p : Pattern) (v : Variant) : Except Error (List Subroutine) := do
  let found ← (p.checks v).mapM accepted
  return withoutRepeats (found.filterMap id)

def checkEvent (v : Variant) : Subroutine × Except Error (Option Rejection) → Option Event
  | (_, .error _) => none
  | (s, .ok none) => some (.candidate v.id (v.rvaOf s))
  | (s, .ok (some reason)) => some (.rejected v.id (v.rvaOf s) reason)

/-- What the search for candidates reports: one event for every anchor, up to a mistake in
the pattern. -/
def events (p : Pattern) (v : Variant) : List Event :=
  ((p.checks v).map (checkEvent v)).takeWhile Option.isSome |>.filterMap id

/-- The only subroutine that satisfies the pattern. -/
def findUnique (p : Pattern) (signature : String) (v : Variant) :
    Except Error Subroutine := do
  match ← p.candidates v with
  | [] => .error (.noMatch signature v.id)
  | [s] => return s
  | found => .error (.ambiguousMatch signature v.id (found.map v.rvaOf))

end Pattern
end JumpHooks
