import JumpHooks.Instruction.GeneralPurpose
import JumpHooks.Instruction.Named
import JumpHooks.Proofs.Bytes.Numbers
import JumpHooks.Proofs.Instruction.Targets
import Mathlib.Data.Int.ModEq

/-!
# Instructions at two places

The same bytes at two places are the same instruction up to what is counted from its end: near
branch targets move with the code, and so does memory addressed from the instruction pointer.
Everything else about an instruction stays.
-/

namespace JumpHooks

/-!
# Addresses
-/

/-- Near branches of this kind of code can go to the address. -/
def Bitness.Reaches (b : Bitness) (a : UInt64) : Prop :=
  b.pointer.truncate a = a

theorem Bitness.reaches_x64 (a : UInt64) : Bitness.x64.Reaches a :=
  rfl

theorem Bitness.reaches_x86 {a : UInt64} (h : a.toNat < 2 ^ 32) : Bitness.x86.Reaches a := by
  show a % 0x100000000 = a
  rw [← UInt64.toNat_inj, UInt64.toNat_mod]
  exact Nat.mod_eq_of_lt h

/-- Cutting an address goes with moving it, as long as nothing is cut from the address that is
hit. -/
theorem Width.truncate_eq_iff_add {w : Width} {x y : UInt64} (d : UInt64)
    (hy : w.truncate y = y) (hmoved : w.truncate (y + d) = y + d) :
    w.truncate x = y ↔ w.truncate (x + d) = y + d := by
  have hdvd : 2 ^ (8 * w.bytes) ∣ 2 ^ 64 := by
    cases w <;> exact Nat.pow_dvd_pow 2 (by decide)
  have hcut : y.toNat % 2 ^ (8 * w.bytes) = y.toNat := by
    rw [← w.toNat_truncate, hy]
  have hcut' : (y.toNat + d.toNat) % 2 ^ (8 * w.bytes) = (y + d).toNat := by
    rw [← hmoved, w.toNat_truncate, UInt64.toNat_add, Nat.mod_mod_of_dvd _ hdvd]
  rw [← UInt64.toNat_inj, ← UInt64.toNat_inj, w.toNat_truncate, w.toNat_truncate,
    UInt64.toNat_add x, Nat.mod_mod_of_dvd _ hdvd, ← hcut']
  constructor
  · intro h
    exact Nat.ModEq.add_right d.toNat (h.trans hcut.symm)
  · intro h
    have hmod : x.toNat % 2 ^ (8 * w.bytes) = y.toNat % 2 ^ (8 * w.bytes) :=
      Nat.ModEq.add_right_cancel' d.toNat h
    exact hmod.trans hcut

/-!
# Operands
-/

namespace Operand

/-- The operand does not count from the end of its instruction. -/
def isFixed : Operand → Bool
  | memory m => !m.isRelative
  | target _ _ => false
  | _ => true

theorem place_of_isFixed {o : Operand} (h : o.isFixed = true) (next : UInt64) :
    o.place next = o := by
  cases o with
  | memory m =>
      have hrelative : m.isRelative = false := by simpa [isFixed] using h
      simp [place, Memory.place, hrelative]
  | target w a => cases h
  | _ => rfl

theorem isFixed_place (next : UInt64) (o : Operand) : (o.place next).isFixed = o.isFixed := by
  cases o with
  | memory m =>
      unfold place isFixed Memory.place
      dsimp only
      split
      · rfl
      · rfl
  | _ => rfl

/-- Placing gives a fixed operand only if it was that one before. -/
theorem place_eq_iff {o o' : Operand} (h : o.isFixed = true) (next : UInt64) :
    o'.place next = o ↔ o' = o := by
  constructor
  · intro heq
    have hfixed : o'.isFixed = true := by
      rw [← isFixed_place next, heq]
      exact h
    rw [← heq, place_of_isFixed hfixed]
  · intro heq
    rw [heq, place_of_isFixed h]

/-- A branch target is placed from a distance. -/
theorem place_eq_target {o : Operand} {next a : UInt64} {w : Width}
    (h : o.place next = .target w a) : ∃ distance, o = .target w distance := by
  cases o with
  | target w' distance =>
      cases h
      exact ⟨distance, rfl⟩
  | _ => cases h

end Operand

namespace Instruction

def isFixed (i : Instruction) : Bool :=
  i.operands.all Operand.isFixed

theorem place_eq_iff {i j : Instruction} (h : j.isFixed = true) (next : UInt64) :
    i.place next = j ↔ i = j := by
  have hoperands : ∀ os os' : List Operand, os.all Operand.isFixed = true →
      (os'.map (Operand.place next) = os ↔ os' = os) := by
    intro os os' hos
    induction os generalizing os' with
    | nil => simp
    | cons o os ih =>
        rw [List.all_cons, Bool.and_eq_true] at hos
        cases os' with
        | nil => simp
        | cons o' os' => simp [Operand.place_eq_iff hos.1, ih os' hos.2]
  cases i with
  | mk form operands segment lock repeating =>
      cases j with
      | mk form' operands' segment' lock' repeating' =>
          simp [place, hoperands operands' operands h]

theorem place_register_iff {i : Instruction} {k : Nat} {r : Register} (next : UInt64) :
    (i.place next).operands[k]? = some (.register r) ↔
      i.operands[k]? = some (.register r) := by
  show (i.operands.map (Operand.place next))[k]? = _ ↔ _
  rw [List.getElem?_map]
  cases i.operands[k]? with
  | none => rfl
  | some o => simp [Operand.place_eq_iff (o := .register r) rfl]

end Instruction

/-!
# Placed instructions
-/

namespace Placed

/-- The instruction stands in this place, with everything that it counts from its end. -/
structure Places (i : Instruction) (p : Placed) : Prop where
  wellFormed : p.WellFormed
  instruction : p.instruction = i.place (p.address + UInt64.ofNat p.length)

theorem Places.exists_distance {i : Instruction} {p : Placed} (h : p.Places i) {stored w : Width}
    (hkinds : i.form.kinds = [.relative stored w]) :
    ∃ distance, i.operands = [.target w distance] := by
  have hform : p.instruction.form.kinds = [.relative stored w] := by
    rw [h.instruction]
    exact hkinds
  rcases h.wellFormed.target hform with ⟨a, ha⟩
  rw [h.instruction] at ha
  rcases List.map_eq_singleton_iff.mp ha with ⟨o, ho, hplace⟩
  rcases Operand.place_eq_target hplace with ⟨distance, rfl⟩
  exact ⟨distance, ho⟩

/-- The second instruction has the bytes of the first one, and stands `shift` behind it. -/
structure Moved (b : Bitness) (shift : UInt64) (p q : Placed) : Prop where
  address : q.address = p.address + shift
  length : q.length = p.length
  same : ∃ i, p.Places i ∧ q.Places i
  call_full : b = .x64 → p.isDirectCall = true →
    p.instruction.form.kinds = [.relative .dword .qword]

end Placed

/-!
# Disassemblers that follow the code
-/

/-- Where bytes stand does not decide whether they are an instruction, how long it is and what it
does. It only decides what is counted from the end of the instruction. -/
structure Disassembler.Relocates (d : Disassembler) : Prop where
  place : ∀ b bytes, (∀ address, d.decode? b address bytes = none) ∨
    ∃ (i : Instruction) (length : Nat), ∀ address, d.decode? b address bytes =
      some ⟨address, length, i.place (address + UInt64.ofNat length)⟩
  /-- Direct calls of 64-bit code go to addresses of full width. -/
  call_full : ∀ {address bytes p}, d.decode? .x64 address bytes = some p →
    p.isDirectCall = true → p.instruction.form.kinds = [.relative .dword .qword]

namespace Disassembler

theorem generalPurpose_relocates : generalPurpose.Relocates where
  place := by
    intro b bytes
    cases hrun : (Decode.instruction b.is64Bit).run (bytes.take Instruction.maxLength) with
    | none =>
        left
        intro address
        show Placed.decode? b address bytes = none
        unfold Placed.decode?
        simp only [hrun]
    | some read =>
        rcases read with ⟨i, rest⟩
        right
        refine ⟨i, (bytes.take Instruction.maxLength).length - rest.length, ?_⟩
        intro address
        show Placed.decode? b address bytes = _
        unfold Placed.decode?
        simp only [hrun]
  call_full := by
    intro address bytes p h hcall
    rcases Placed.decode?_some h with ⟨i, rest, hrun, rfl⟩
    rcases Form.kinds_of_isDirectCall hcall with hkinds | hkinds
    · cases Decode.instruction_fullTarget hrun _ _ hkinds
    · exact hkinds

variable {d : Disassembler} {b : Bitness} {address : UInt64} {bytes : List UInt8}

/-- Where bytes stand does not decide whether they are an instruction. -/
theorem Relocates.decode?_moved (hd : d.Relocates) {p : Placed}
    (h : d.decode? b address bytes = some p) (shift : UInt64) :
    ∃ q, d.decode? b (address + shift) bytes = some q ∧ Placed.Moved b shift p q := by
  rcases hd.place b bytes with hnone | ⟨i, length, hplace⟩
  · rw [hnone] at h
    cases h
  · have hmoved := hplace (address + shift)
    refine ⟨_, hmoved, ?_⟩
    have hp := d.wellFormed h
    have hq := d.wellFormed hmoved
    have hcall : b = .x64 → p.isDirectCall = true →
        p.instruction.form.kinds = [.relative .dword .qword] := by
      rintro rfl
      exact hd.call_full h
    rw [hplace] at h
    cases h
    exact ⟨rfl, rfl, ⟨i, ⟨hp, rfl⟩, ⟨hq, rfl⟩⟩, hcall⟩

theorem Relocates.decode?_eq_none_moved (hd : d.Relocates)
    (h : d.decode? b address bytes = none) (shift : UInt64) :
    d.decode? b (address + shift) bytes = none := by
  rcases hd.place b bytes with hnone | ⟨i, length, hplace⟩
  · exact hnone _
  · rw [hplace] at h
    cases h

end Disassembler

namespace Placed

namespace Moved

variable {b : Bitness} {shift : UInt64} {p q : Placed}

theorem form_eq (h : Moved b shift p q) : q.instruction.form = p.instruction.form := by
  rcases h.same with ⟨i, hp, hq⟩
  rw [hp.instruction, hq.instruction]
  rfl

theorem isDirectCall_eq (h : Moved b shift p q) : q.isDirectCall = p.isDirectCall :=
  congrArg Form.isDirectCall h.form_eq

theorem isPadding_eq (h : Moved b shift p q) : q.isPadding = p.isPadding :=
  congrArg Form.isPadding h.form_eq

/-- Seen from the second place, the first one is as far in front. -/
theorem symm (h : Moved b shift p q) : Moved b (-shift) q p := by
  rcases h.same with ⟨i, hp, hq⟩
  constructor
  · rw [h.address, ← UInt64.sub_eq_add_neg, UInt64.add_sub_cancel]
  · exact h.length.symm
  · exact ⟨i, hq, hp⟩
  · rw [h.form_eq, h.isDirectCall_eq]
    exact h.call_full

theorem instruction_eq_iff (h : Moved b shift p q) {j : Instruction} (hj : j.isFixed = true) :
    p.instruction = j ↔ q.instruction = j := by
  rcases h.same with ⟨i, hp, hq⟩
  rw [hp.instruction, hq.instruction, Instruction.place_eq_iff hj, Instruction.place_eq_iff hj]

theorem register_iff (h : Moved b shift p q) {k : Nat} {r : Register} :
    p.instruction.operands[k]? = some (.register r) ↔
      q.instruction.operands[k]? = some (.register r) := by
  rcases h.same with ⟨i, hp, hq⟩
  rw [hp.instruction, hq.instruction, Instruction.place_register_iff,
    Instruction.place_register_iff]

/-- A branch to an address becomes one to the address that is as far behind it. -/
theorem target_iff (h : Moved b shift p q) {stored w : Width}
    (hkinds : p.instruction.form.kinds = [.relative stored w]) {a : UInt64}
    (ha : w.truncate a = a) (hmoved : w.truncate (a + shift) = a + shift) :
    p.instruction.target? = some a ↔ q.instruction.target? = some (a + shift) := by
  rcases h.same with ⟨i, hp, hq⟩
  rw [hp.instruction] at hkinds
  rcases hp.exists_distance hkinds with ⟨distance, hos⟩
  have htarget : ∀ next, (i.place next).target? = some (w.truncate (next + distance)) := by
    intro next
    rw [Instruction.target?, Instruction.place_target next hos]
    rfl
  have hnext : q.address + UInt64.ofNat q.length + distance =
      p.address + UInt64.ofNat p.length + distance + shift := by
    rw [h.address, h.length]
    ac_rfl
  rw [hp.instruction, hq.instruction, htarget, htarget, hnext, Option.some.injEq,
    Option.some.injEq]
  exact Width.truncate_eq_iff_add shift ha hmoved

/-- The target of a direct call is never cut in 64-bit code, and is a pointer in other code. -/
theorem call_target_iff (h : Moved b shift p q) (hcall : p.isDirectCall = true) {a : UInt64}
    (ha : b.Reaches a) (hmoved : b.Reaches (a + shift)) :
    p.instruction.target? = some a ↔ q.instruction.target? = some (a + shift) := by
  cases b with
  | x64 => exact h.target_iff (h.call_full rfl hcall) ha hmoved
  | x86 =>
      rcases Form.kinds_of_isDirectCall hcall with hkinds | hkinds
      · exact h.target_iff hkinds ha hmoved
      · exact h.target_iff hkinds rfl rfl

end Moved
end Placed
end JumpHooks
