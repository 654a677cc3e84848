import JumpHooks.Instruction.GeneralPurpose

/-!
# An instruction and its own bytes

An instruction is decided by the bytes that it takes. It is read again from these bytes alone,
and from any bytes that begin with them.
-/

namespace JumpHooks

open Reader

namespace Placed

variable {b : Bitness} {address : UInt64} {bytes : List UInt8} {p : Placed}

/-- Bytes that are read as one instruction to their end are that instruction wherever they
stand, unless they are too many. -/
theorem decode?_of_run {own : List UInt8} {i : Instruction}
    (h : (Decode.instruction b.is64Bit).run own = some (i, []))
    (hle : own.length ≤ Instruction.maxLength) (address : UInt64) (more : List UInt8) :
    Placed.decode? b address (own ++ more) =
      some ⟨address, own.length, i.place (address + UInt64.ofNat own.length)⟩ := by
  have hwindow : (own ++ more).take Instruction.maxLength =
      own ++ more.take (Instruction.maxLength - own.length) := by
    rw [List.take_append, List.take_of_length_le hle]
  have hrun : (Decode.instruction b.is64Bit).run ((own ++ more).take Instruction.maxLength) =
      some (i, more.take (Instruction.maxLength - own.length)) := by
    rw [hwindow]
    exact run_own (by rw [List.append_nil]; exact h) _
  have hlength : ((own ++ more).take Instruction.maxLength).length -
      (more.take (Instruction.maxLength - own.length)).length = own.length := by
    rw [hwindow, List.length_append, Nat.add_sub_cancel]
  unfold Placed.decode?
  simp only [hrun, hlength]

theorem exists_own (h : Placed.decode? b address bytes = some p) :
    ∃ i, (Decode.instruction b.is64Bit).run (bytes.take p.length) = some (i, []) ∧
      p = ⟨address, p.length, i.place (address + UInt64.ofNat p.length)⟩ := by
  rcases decode?_some h with ⟨i, rest, hrun, hp⟩
  rcases run_suffix hrun with ⟨own, hown⟩
  have hlength : p.length = own.length := by
    rw [hp, ← hown, List.length_append, Nat.add_sub_cancel]
  have htake : bytes.take p.length = own := by
    have hle : own.length ≤ Instruction.maxLength := by
      rw [← hlength]
      exact (decode?_wellFormed h).length_le
    have hcut : (bytes.take Instruction.maxLength).take own.length = own := by
      rw [← hown, List.take_left]
    rw [List.take_take, Nat.min_eq_left hle] at hcut
    rw [hlength, hcut]
  refine ⟨i, ?_, ?_⟩
  · rw [← hown] at hrun
    have hrun := run_own hrun []
    rw [List.append_nil] at hrun
    rw [htake]
    exact hrun
  · rw [hp]

/-- What stands behind the bytes of an instruction does not matter. -/
theorem decode?_own (h : Placed.decode? b address bytes = some p) (more : List UInt8) :
    Placed.decode? b address (bytes.take p.length ++ more) = some p := by
  rcases exists_own h with ⟨i, hrun, hp⟩
  have hlength : (bytes.take p.length).length = p.length :=
    List.length_take_of_le (decode?_length_le h)
  have hle := (decode?_wellFormed h).length_le
  rw [decode?_of_run hrun (by rw [hlength]; exact hle), hlength]
  exact congrArg some hp.symm

theorem decode?_append (h : Placed.decode? b address bytes = some p) (more : List UInt8) :
    Placed.decode? b address (bytes ++ more) = some p := by
  have hown := decode?_own h (bytes.drop p.length ++ more)
  rw [← List.append_assoc, List.take_append_drop] at hown
  exact hown

end Placed

namespace Disassembler

theorem generalPurpose_rereads : generalPurpose.Rereads := by
  intro b address bytes p h
  have hown := Placed.decode?_own h []
  rw [List.append_nil] at hown
  exact hown

theorem generalPurpose_ignoresRest : generalPurpose.IgnoresRest :=
  fun _ _ _ _ => Placed.decode?_append

end Disassembler
end JumpHooks
