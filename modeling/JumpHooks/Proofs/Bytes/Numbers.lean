import JumpHooks.Hook.Stub
import JumpHooks.Proofs.Bytes.Consumption
import Mathlib.Algebra.Order.Ring.Nat

/-!
# Numbers in bytes

Little-endian numbers are read as they were written, and cutting a number to a width keeps the
bits that its bytes hold.
-/

namespace JumpHooks

open Reader

/-!
# Little-endian numbers
-/

theorem length_littleEndian (count : Nat) (v : UInt64) : (littleEndian count v).length = count := by
  induction count generalizing v with
  | zero => rfl
  | succ count ih => exact congrArg Nat.succ (ih (v / 0x100))

theorem number_littleEndian (count : Nat) (v : UInt64) (rest : List UInt8) :
    (Reader.number count).run (littleEndian count v ++ rest) =
      some (UInt64.ofNat (v.toNat % 2 ^ (8 * count)), rest) := by
  induction count generalizing v with
  | zero => simp [Reader.number, littleEndian, run, Nat.mod_one]
  | succ count ih =>
      show ((number count).bind fun high => done (v.toUInt8.toUInt64 + 256 * high)).run
        (littleEndian count (v / 0x100) ++ rest) = _
      have hpow : 2 ^ (8 * (count + 1)) = 256 * 2 ^ (8 * count) := by
        rw [Nat.mul_succ, Nat.pow_add, Nat.mul_comm]
      rw [run_bind, ih, hpow, Nat.mod_mul]
      show some (_, rest) = some (_, rest)
      congr 2
      rw [← UInt64.toNat_inj]
      simp

theorem number_lt {count : Nat} (hcount : count ≤ 8) {bytes rest : List UInt8} {v : UInt64}
    (h : (Reader.number count).run bytes = some (v, rest)) : v.toNat < 2 ^ (8 * count) := by
  induction count generalizing bytes rest v with
  | zero =>
      rw [← (run_done_some h).1]
      decide
  | succ count ih =>
      cases bytes with
      | nil => cases h
      | cons b bytes =>
          rcases run_bind_some h with ⟨high, mid, hhigh, hdone⟩
          rw [← (run_done_some hdone).1]
          have hlt := ih (by lia) hhigh
          have hbyte := b.toNat_lt
          have hpow : 2 ^ (8 * (count + 1)) = 256 * 2 ^ (8 * count) := by
            rw [Nat.mul_succ, Nat.pow_add, Nat.mul_comm]
          have hle : 2 ^ (8 * (count + 1)) ≤ 2 ^ 64 := Nat.pow_le_pow_right (by decide) (by lia)
          rw [UInt64.toNat_add, UInt64.toNat_mul, UInt8.toNat_toUInt64]
          show (b.toNat + 256 * high.toNat % 2 ^ 64) % 2 ^ 64 < _
          lia

/-!
# Widths
-/

namespace Width

theorem toNat_truncate (w : Width) (v : UInt64) :
    (w.truncate v).toNat = v.toNat % 2 ^ (8 * w.bytes) := by
  cases w with
  | byte => simp [truncate, bytes]
  | word => simp [truncate, bytes]
  | dword => simp [truncate, bytes]
  | qword => exact (Nat.mod_eq_of_lt v.toNat_lt).symm

theorem signed_eq_or (w : Width) (v : UInt64) :
    w.signed v = v ∨ w.signed v = v - UInt64.ofNat (2 ^ (8 * w.bytes)) := by
  cases w with
  | byte => exact ite_eq_or_eq _ _ _
  | word => exact ite_eq_or_eq _ _ _
  | dword => exact ite_eq_or_eq _ _ _
  | qword => exact .inl rfl

/-- The sign does not reach the bits that fit the width. -/
theorem truncate_signed (w : Width) (v : UInt64) : w.truncate (w.signed v) = w.truncate v := by
  have hlt := v.toNat_lt
  rcases w.signed_eq_or v with h | h
  · rw [h]
  · rw [h, ← UInt64.toNat_inj, toNat_truncate, toNat_truncate, UInt64.toNat_sub]
    cases w with
    | byte => simp [bytes]; lia
    | word => simp [bytes]; lia
    | dword => simp [bytes]; lia
    | qword => simp [bytes]

/-- A number that was cut to the width is a number of the width. -/
theorem truncate_ofNat_mod (w : Width) (n : Nat) :
    w.truncate (UInt64.ofNat (n % 2 ^ (8 * w.bytes))) =
      UInt64.ofNat (n % 2 ^ (8 * w.bytes)) := by
  rw [← UInt64.toNat_inj, toNat_truncate, UInt64.toNat_ofNat']
  cases w with
  | byte => simp [bytes]; lia
  | word => simp [bytes]; lia
  | dword => simp [bytes]; lia
  | qword => simp [bytes]

theorem truncate_truncate (w : Width) (v : UInt64) : w.truncate (w.truncate v) = w.truncate v := by
  rw [← UInt64.toNat_inj, toNat_truncate, toNat_truncate, Nat.mod_mod]

theorem truncate_of_lt {w : Width} {v : UInt64} (h : v.toNat < 2 ^ (8 * w.bytes)) :
    w.truncate v = v := by
  rw [← UInt64.toNat_inj, toNat_truncate, Nat.mod_eq_of_lt h]

theorem truncate_zero (w : Width) : w.truncate 0 = 0 :=
  truncate_of_lt (Nat.pow_pos (by decide))

/-- A small number is not lost when an address is cut to its width. -/
theorem truncate_add_ne {w : Width} (hw : w ≠ .byte) {c : UInt64} (d : UInt64)
    (hpos : 0 < c.toNat) (hlt : c.toNat < 2 ^ 16) : w.truncate (c + d) ≠ w.truncate d := by
  have hc := c.toNat_lt
  have hd := d.toNat_lt
  rw [Ne, ← UInt64.toNat_inj, toNat_truncate, toNat_truncate, UInt64.toNat_add]
  cases w with
  | byte => exact absurd rfl hw
  | word => simp only [bytes]; lia
  | dword => simp only [bytes]; lia
  | qword => simp only [bytes]; lia

end Width

end JumpHooks
