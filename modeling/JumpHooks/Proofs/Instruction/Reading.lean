import JumpHooks.Instruction.Decode
import JumpHooks.Proofs.Bytes.Consumption

/-!
# Decoded instructions

What holds of every instruction that is read from bytes: it takes at least one byte and at
most fifteen, stands where it was read, and has the operands that its form asks for.
-/

namespace JumpHooks

open Reader

namespace Decode

/-!
# Operands

An instruction ends with its operands, one for each place of the form.
-/

theorem Fields.instruction_operands {x : Fields} {form : Form} {bytes rest : List UInt8}
    {i : Instruction} (h : (x.instruction form).run bytes = some (i, rest)) :
    ∃ rest', (x.operands i.form.kinds).run bytes = some (i.operands, rest') := by
  rcases run_monad_bind_some h with ⟨os, mid, hos, hlast⟩
  dsimp only at hlast
  split at hlast
  · cases hlast
  · rw [← (run_done_some hlast).1]
    exact ⟨mid, hos⟩

/-- Memory that a ModRM byte describes is read after this byte. -/
def Fields.IsRead (x : Fields) : Prop :=
  ∀ m, x.place = .memory m →
    ∃ (y : ModRM) (bytes rest : List UInt8),
      (memory x.long x.prefixes y).run bytes = some (m, rest)

theorem Fields.isRead_register (long : Bool) (p : Prefixes) (opcode reg n : Nat) :
    (Fields.mk long p opcode reg (.register n)).IsRead := by
  intro m h
  cases h

theorem Fields.isRead_place {long : Bool} {p : Prefixes} {y : ModRM} {bytes rest : List UInt8}
    {x : Place} (h : (Decode.place long p y).run bytes = some (x, rest)) (opcode reg : Nat) :
    (Fields.mk long p opcode reg x).IsRead := by
  intro m hm
  change x = .memory m at hm
  unfold Decode.place at h
  split at h
  · rw [← (run_done_some h).1] at hm
    cases hm
  · rcases run_bind_some h with ⟨m', mid, hmemory, hdone⟩
    rw [← (run_done_some hdone).1] at hm
    cases hm
    exact ⟨y, bytes, mid, hmemory⟩

/-- Whatever the entry of the opcode map, the instruction ends with its operands. -/
theorem instruction_operands {long : Bool} {bytes rest : List UInt8} {i : Instruction}
    (h : (Decode.instruction long).run bytes = some (i, rest)) :
    ∃ (x : Fields) (mid rest' : List UInt8), x.IsRead ∧
      (x.operands i.form.kinds).run mid = some (i.operands, rest') := by
  rcases run_monad_bind_some h with ⟨⟨p, first⟩, mid, _, hprefixed⟩
  rcases run_monad_bind_some hprefixed with ⟨⟨e, opcode⟩, mid', _, hentry⟩
  cases e with
  | undefined => cases hentry
  | plain form =>
      rcases Fields.instruction_operands hentry with ⟨rest', hoperands⟩
      exact ⟨_, _, rest', Fields.isRead_register _ _ _ _ _, hoperands⟩
  | modRM choose =>
      rcases run_monad_bind_some hentry with ⟨b, mid'', _, hchosen⟩
      dsimp only at hchosen
      split at hchosen
      · cases hchosen
      · rcases run_monad_bind_some hchosen with ⟨place, _, hplace, hform⟩
        rcases Fields.instruction_operands hform with ⟨rest', hoperands⟩
        exact ⟨_, _, rest', Fields.isRead_place hplace _ _, hoperands⟩
  | registers choose =>
      rcases run_monad_bind_some hentry with ⟨b, mid'', _, hchosen⟩
      dsimp only at hchosen
      split at hchosen
      · cases hchosen
      · rcases Fields.instruction_operands hchosen with ⟨rest', hoperands⟩
        exact ⟨_, _, rest', Fields.isRead_register _ _ _ _ _, hoperands⟩

theorem Fields.operand_relative {x : Fields} {stored target : Width} {o : Operand}
    {bytes rest : List UInt8}
    (h : (x.operand (.relative stored target)).run bytes = some (o, rest)) :
    ∃ distance, o = .target target distance := by
  rcases run_monad_bind_some h with ⟨v, mid, _, hdone⟩
  exact ⟨stored.signed v, (run_done_some hdone).1.symm⟩

/-- A form with a distance for its only place has a branch target for its only operand. -/
theorem operands_of_relative {long : Bool} {bytes rest : List UInt8} {i : Instruction}
    (h : (Decode.instruction long).run bytes = some (i, rest)) {stored target : Width}
    (hkinds : i.form.kinds = [.relative stored target]) :
    ∃ distance, i.operands = [.target target distance] := by
  rcases instruction_operands h with ⟨x, mid, rest', _, hoperands⟩
  rw [hkinds] at hoperands
  rcases run_monad_bind_some hoperands with ⟨o, mid', ho, hrest⟩
  rcases run_monad_bind_some hrest with ⟨os, mid'', hos, hdone⟩
  rcases Fields.operand_relative ho with ⟨distance, rfl⟩
  rw [← (run_done_some hdone).1, ← (run_done_some hos).1]
  exact ⟨distance, rfl⟩

end Decode

/-!
# Places
-/

theorem Instruction.place_target {w : Width} {distance : UInt64} (next : UInt64)
    {i : Instruction} (h : i.operands = [.target w distance]) :
    (i.place next).operands = [.target w (w.truncate (next + distance))] := by
  show i.operands.map (Operand.place next) = _
  rw [h]
  rfl

namespace Placed

theorem decode?_some {b : Bitness} {address : UInt64} {bytes : List UInt8} {p : Placed}
    (h : Placed.decode? b address bytes = some p) :
    ∃ i rest, (Decode.instruction b.is64Bit).run (bytes.take Instruction.maxLength) =
        some (i, rest) ∧
      p = ⟨address, (bytes.take Instruction.maxLength).length - rest.length,
        i.place (address + UInt64.ofNat
          ((bytes.take Instruction.maxLength).length - rest.length))⟩ := by
  unfold Placed.decode? at h
  dsimp only at h
  split at h
  · cases h
  · rename_i i rest hrun
    exact ⟨i, rest, hrun, (Option.some.inj h).symm⟩

theorem decode?_address {b : Bitness} {address : UInt64} {bytes : List UInt8} {p : Placed}
    (h : Placed.decode? b address bytes = some p) : p.address = address := by
  rcases decode?_some h with ⟨i, rest, _, rfl⟩
  rfl

theorem decode?_length_le {b : Bitness} {address : UInt64} {bytes : List UInt8} {p : Placed}
    (h : Placed.decode? b address bytes = some p) : p.length ≤ bytes.length := by
  rcases decode?_some h with ⟨i, rest, _, rfl⟩
  exact Nat.le_trans (Nat.sub_le _ _) (List.length_take_le' _ _)

theorem decode?_wellFormed {b : Bitness} {address : UInt64} {bytes : List UInt8} {p : Placed}
    (h : Placed.decode? b address bytes = some p) : p.WellFormed := by
  rcases decode?_some h with ⟨i, rest, hrun, rfl⟩
  have hlt : rest.length < (bytes.take Instruction.maxLength).length :=
    run_next_length_lt hrun
  constructor
  · exact Nat.sub_pos_of_lt hlt
  · exact Nat.le_trans (Nat.sub_le _ _) (List.length_take_le _ _)
  · intro stored w hkinds
    rcases Decode.operands_of_relative hrun hkinds with ⟨distance, hos⟩
    exact ⟨_, Instruction.place_target _ hos⟩

end Placed
end JumpHooks
