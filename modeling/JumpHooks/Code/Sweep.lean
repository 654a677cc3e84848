import JumpHooks.Instruction.Disassembler

/-!
# Sweeps

Code is decoded from its first byte to its last, and each instruction is looked for where the
one before it ends. So the instructions that a sweep finds stand one behind the other and take
all bytes.
-/

namespace JumpHooks

/-- Decodes `bytes` from `address` on, after skipping `pending` bytes that belong to an
instruction already decoded. Fails with the address of the first invalid instruction. -/
def sweep (d : Disassembler) (bitness : Bitness) :
    (address : UInt64) → (pending : Nat) → (bytes : List UInt8) → Array Placed →
      Except UInt64 (Array Placed)
  | _, _, [], decoded => .ok decoded
  | address, pending + 1, _ :: bytes, decoded =>
      sweep d bitness (address + 1) pending bytes decoded
  | address, 0, b :: bytes, decoded =>
      match d.decode? bitness address (b :: bytes) with
      | none => .error address
      | some p => sweep d bitness (address + 1) (p.length - 1) bytes (decoded.push p)

/-- The first instructions of `bytes`, which stand at `address`, one after the other, and the
bytes behind them. -/
inductive Decodes (d : Disassembler) (b : Bitness) :
    UInt64 → List UInt8 → List Placed → List UInt8 → Prop where
  | nil (address : UInt64) (bytes : List UInt8) : Decodes d b address bytes [] bytes
  | cons {address : UInt64} {bytes rest : List UInt8} {p : Placed} {ps : List Placed} :
      d.decode? b address bytes = some p →
      Decodes d b (address + UInt64.ofNat p.length) (bytes.drop p.length) ps rest →
      Decodes d b address bytes (p :: ps) rest

/-- The instructions stand one behind the other, and the first of them at `address`. -/
inductive Consecutive : UInt64 → List Placed → Prop where
  | nil (address : UInt64) : Consecutive address []
  | cons {p : Placed} {ps : List Placed} :
      p.WellFormed →
      Consecutive (p.address + UInt64.ofNat p.length) ps →
      Consecutive p.address (p :: ps)

/-- The bytes that instructions take together. -/
def totalLength (ps : List Placed) : Nat :=
  (ps.map Placed.length).foldr (· + ·) 0

theorem totalLength_append (ps qs : List Placed) :
    totalLength (ps ++ qs) = totalLength ps + totalLength qs := by
  induction ps with
  | nil => simp [totalLength]
  | cons p ps ih =>
      show p.length + totalLength (ps ++ qs) = p.length + totalLength ps + totalLength qs
      rw [ih, Nat.add_assoc]

theorem address_advance (address : UInt64) (n : Nat) :
    address + 1 + UInt64.ofNat n = address + UInt64.ofNat (n + 1) := by
  rw [UInt64.ofNat_add, UInt64.add_assoc, UInt64.add_comm 1]
  rfl

theorem address_add_zero (address : UInt64) : address + UInt64.ofNat 0 = address :=
  UInt64.add_zero address

variable {d : Disassembler} {b : Bitness} {address : UInt64} {bytes : List UInt8}

theorem sweep_decodes {pending : Nat} {decoded out : Array Placed}
    (hle : pending ≤ bytes.length) (h : sweep d b address pending bytes decoded = .ok out) :
    ∃ ps, out.toList = decoded.toList ++ ps ∧
      Decodes d b (address + UInt64.ofNat pending) (bytes.drop pending) ps [] := by
  -- On the bytes: the pending ones belong to an instruction that is already in `decoded`.
  induction bytes generalizing address pending decoded with
  | nil =>
      cases h
      refine ⟨[], by simp, ?_⟩
      rw [List.drop_nil]
      exact .nil _ _
  | cons byte bytes ih =>
      cases pending with
      | succ pending =>
          rcases ih (Nat.le_of_succ_le_succ hle) h with ⟨ps, hout, hps⟩
          rw [address_advance] at hps
          exact ⟨ps, hout, hps⟩
      | zero =>
          unfold sweep at h
          cases hp : d.decode? b address (byte :: bytes) with
          | none =>
              rw [hp] at h
              cases h
          | some p =>
              rw [hp] at h
              have hpos := (d.wellFormed hp).length_pos
              have hlen := d.length_le hp
              rw [List.length_cons] at hlen
              rcases ih (by lia) h with ⟨ps, hout, hps⟩
              have hnext : p.length - 1 + 1 = p.length := Nat.sub_add_cancel hpos
              rw [address_advance, hnext] at hps
              rw [Array.toList_push, List.append_assoc] at hout
              refine ⟨p :: ps, hout, ?_⟩
              rw [List.drop_zero, address_add_zero]
              apply Decodes.cons hp
              rw [← hnext, List.drop_succ_cons, hnext]
              exact hps

/-- A sweep over all of the bytes. -/
theorem decodes_of_sweep {instructions : Array Placed}
    (h : sweep d b address 0 bytes #[] = .ok instructions) :
    Decodes d b address bytes instructions.toList [] := by
  rcases sweep_decodes (Nat.zero_le _) h with ⟨ps, hps, hdecodes⟩
  rw [address_add_zero, List.drop_zero] at hdecodes
  have hall : instructions.toList = ps := hps
  rw [hall]
  exact hdecodes

namespace Decodes

variable {rest : List UInt8} {ps : List Placed}

theorem consecutive (h : Decodes d b address bytes ps rest) : Consecutive address ps := by
  induction h with
  | nil address => exact .nil address
  | cons hp _ ih =>
      rw [← d.address_eq hp] at ih ⊢
      exact .cons (d.wellFormed hp) ih

theorem totalLength_add (h : Decodes d b address bytes ps rest) :
    totalLength ps + rest.length = bytes.length := by
  induction h with
  | nil address bytes => exact Nat.zero_add _
  | @cons address bytes rest p ps hp _ ih =>
      have hlen := d.length_le hp
      rw [List.length_drop] at ih
      show p.length + totalLength ps + rest.length = bytes.length
      lia

end Decodes
end JumpHooks
