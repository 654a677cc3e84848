import JumpHooks.Code.Variant

/-!
# Subroutines

Compilers lay functions out one after the other. A function begins where a direct call goes
or after padding, and ends before the next such place. Functions that are only called
indirectly and stand without padding are not told apart, so a subroutine has to be confirmed
by a signature.
-/

namespace JumpHooks

/-- A range of instructions of a variant, `stop` not included. -/
structure Subroutine where
  start : Nat
  stop : Nat
deriving DecidableEq, Repr

namespace Subroutine

def size (s : Subroutine) : Nat :=
  s.stop - s.start

end Subroutine

namespace Variant

/-- The start of the subroutine around an instruction: the walk back stops on the target of
a call, and after padding. -/
def startOf (v : Variant) : Nat → Nat
  | 0 => 0
  | k + 1 => if v.isEntered (k + 1) || v.isPadding k then k + 1 else v.startOf k

/-- The end of the subroutine when `k` and at most `remaining` instructions from it on may
still belong to it: the walk forward stops before the target of a call or padding. -/
def stopFrom (v : Variant) : (remaining : Nat) → (k : Nat) → Nat
  | 0, k => k
  | remaining + 1, k =>
      if v.isEntered k || v.isPadding k then k else v.stopFrom remaining (k + 1)

def subroutineAt (v : Variant) (index : Nat) : Subroutine where
  start := v.startOf index
  stop := v.stopFrom (v.size - (index + 1)) (index + 1)

/-- The subroutine around an instruction that is there. -/
def subroutine (v : Variant) (index : Nat) : Except Error Subroutine :=
  if index < v.size then
    .ok (v.subroutineAt index)
  else
    .error (.indexOutOfRange index v.size)

/-- The instructions of a range. -/
def slice (v : Variant) (start stop : Nat) : List Placed :=
  (v.instructions.extract start stop).toList

def body (v : Variant) (s : Subroutine) : List Placed :=
  v.slice s.start s.stop

theorem body_eq (v : Variant) (s : Subroutine) :
    v.body s = (v.instructions.toList.drop s.start).take s.size := by
  unfold body slice
  rw [Array.toList_extract, List.extract_eq_take_drop]
  rfl

def lengths (v : Variant) (s : Subroutine) : List Nat :=
  (v.body s).map Placed.length

/-- The address of the first instruction, relative to the image base. -/
def rvaOf (v : Variant) (s : Subroutine) : UInt64 :=
  (v.rva? s.start).getD 0

def byteLength (v : Variant) (s : Subroutine) : Nat :=
  (v.lengths s).foldr (· + ·) 0

/-- A subroutine takes no more bytes than there are addresses. -/
theorem byteLength_lt (v : Variant) (s : Subroutine) : v.byteLength s < UInt64.size := by
  have hall := v.gapless.totalLength_lt
  have hbody : v.byteLength s = totalLength (v.body s) := rfl
  -- What stands before the subroutine, the subroutine, and what stands behind it.
  rw [← List.take_append_drop s.start v.instructions.toList,
    ← List.take_append_drop s.size (v.instructions.toList.drop s.start),
    totalLength_append, totalLength_append, ← v.body_eq] at hall
  lia

def linesOf (d : Disassembler) (v : Variant) (s : Subroutine) : List String :=
  (v.body s).map (Placed.text d v.id.bitness)

/-- A subroutine's facts in the notation of records. -/
def subroutineRecord (v : Variant) (s : Subroutine) : String :=
  Text.record "Subroutine"
    [("variant", v.id.record), ("rva", Text.hex (v.rvaOf s).toNat),
      ("range", s!"{s.start}..{s.stop}")]

end Variant
end JumpHooks
