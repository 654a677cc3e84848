import JumpHooks.Instruction.GeneralPurpose
import JumpHooks.Proofs.Bytes.Numbers
import JumpHooks.Proofs.Outcome
import Mathlib.Tactic.SplitIfs

/-!
# Addresses of memory operands

Both instruction sets write the address of memory as a number alone, as a distance from the
instruction pointer, or as a distance from other registers. These are general registers, and a
vector register in place of the index where an instruction gathers or scatters. Only in the first
two cases is there one address that the operand stands for, whatever the registers hold.
-/

namespace JumpHooks

/-!
# What an operand stands for
-/

namespace Register

def isGeneral : Register → Bool
  | general _ _ => true
  | _ => false

def isInstructionPointer : Register → Bool
  | instructionPointer _ => true
  | _ => false

theorem isInstructionPointer_of_isGeneral {r : Register} (h : r.isGeneral = true) :
    r.isInstructionPointer = false := by
  cases r with
  | general w n => rfl
  | _ => cases h

end Register

namespace Memory

/-- The address is written as a number alone. -/
def isAbsolute (m : Memory) : Bool :=
  m.base.isNone && m.index.isNone

def usesGeneral (m : Memory) : Bool :=
  m.base.any Register.isGeneral || m.index.any Register.isGeneral

/-- A register other than the instruction pointer is part of the address. -/
def usesRegister (m : Memory) : Bool :=
  m.base.any (!·.isInstructionPointer) || m.index.any (!·.isInstructionPointer)

theorem usesRegister_of_usesGeneral {m : Memory} (h : m.usesGeneral = true) :
    m.usesRegister = true := by
  have hany : ∀ r : Option Register, r.any Register.isGeneral = true →
      r.any (!·.isInstructionPointer) = true := by
    intro r hr
    cases r with
    | none => cases hr
    | some r =>
        have hother := Register.isInstructionPointer_of_isGeneral hr
        rw [Option.any_some, hother]
        rfl
  unfold usesGeneral at h
  unfold usesRegister
  rw [Bool.or_eq_true] at h ⊢
  exact h.imp (hany _) (hany _)

/-- What a register adds to an address when the registers hold these values. The instruction
pointer adds nothing: the displacement of a placed operand contains it. A vector register holds a
value for each address, and adds the one of the address in question. -/
def part (registers : Register → UInt64) : Option Register → UInt64
  | none => 0
  | some (.instructionPointer _) => 0
  | some r => registers r

def registerSum (registers : Register → UInt64) (m : Memory) : UInt64 :=
  part registers m.base + part registers m.index * UInt64.ofNat m.scale

/-- The address of a placed operand when the registers hold these values. -/
def effective (registers : Register → UInt64) (m : Memory) : UInt64 :=
  m.address.truncate (m.registerSum registers + m.displacement)

/-- The operand stands for the address `a`, whatever the registers hold. -/
def Resolves (m : Memory) (a : UInt64) : Prop :=
  ∀ registers, m.effective registers = a

/-- What the encodings of memory have in common. -/
structure WellFormed (m : Memory) : Prop where
  address_ne : m.address ≠ .byte
  base : ∀ r, m.base = some r →
    r.isInstructionPointer = false ∨ r = .instructionPointer m.address ∧ m.index = none
  index : ∀ r, m.index = some r → r.isInstructionPointer = false
  scale : m.scale ∈ [1, 2, 4, 8]
  truncated : m.address.truncate m.displacement = m.displacement

theorem part_of_ne_instructionPointer {r : Register} (h : r.isInstructionPointer = false)
    (registers : Register → UInt64) : part registers (some r) = registers r := by
  cases r with
  | instructionPointer w => cases h
  | _ => rfl

end Memory

namespace Memory.WellFormed

variable {m : Memory}

/-- An operand without other registers is one of the two kinds that have an address of their
own. -/
theorem usesRegister_eq_false_iff (h : m.WellFormed) :
    m.usesRegister = false ↔ m.isAbsolute = true ∨ m.isRelative = true := by
  unfold usesRegister isAbsolute isRelative
  cases hindex : m.index with
  | some r =>
      have hother := h.index r hindex
      have hbase : ∀ w, m.base ≠ some (.instructionPointer w) := by
        intro w hw
        rcases h.base _ hw with hcases | ⟨_, hnone⟩
        · cases hcases
        · rw [hindex] at hnone
          cases hnone
      constructor
      · intro hfalse
        simp [hother] at hfalse
      · intro hstatic
        split at hstatic
        · rename_i w hw
          exact absurd hw (hbase w)
        · simp at hstatic
  | none =>
      cases hbase : m.base with
      | none => simp
      | some r =>
          rcases h.base r hbase with hother | ⟨rfl, _⟩
          · cases r with
            | instructionPointer w => cases hother
            | _ => simp [Register.isInstructionPointer]
          · simp [Register.isInstructionPointer]

theorem effective_of_usesRegister_eq_false (h : m.WellFormed) (hstatic : m.usesRegister = false)
    (registers : Register → UInt64) : m.effective registers = m.displacement := by
  unfold usesRegister at hstatic
  rw [Bool.or_eq_false_iff] at hstatic
  have hindex : m.index = none := by
    cases hm : m.index with
    | none => rfl
    | some r =>
        have hother := h.index r hm
        simp [hm, hother] at hstatic
  have hbase : part registers m.base = 0 := by
    cases hm : m.base with
    | none => rfl
    | some r =>
        rcases h.base r hm with hother | ⟨rfl, _⟩
        · simp [hm, hother] at hstatic
        · rfl
  unfold effective registerSum
  rw [hbase, hindex]
  show m.address.truncate (0 + 0 * _ + m.displacement) = _
  rw [UInt64.zero_mul, UInt64.zero_add, UInt64.zero_add, h.truncated]

/-- When every register holds one, the registers add a small number to the address. -/
theorem registerSum_one_bounds (h : m.WellFormed) (huses : m.usesRegister = true) :
    0 < (m.registerSum fun _ => 1).toNat ∧ (m.registerSum fun _ => 1).toNat ≤ 9 := by
  have hindex : m.index = none ∨ part (fun _ => 1) m.index = 1 := by
    cases hm : m.index with
    | none => exact .inl rfl
    | some r => exact .inr (part_of_ne_instructionPointer (h.index r hm) _)
  have hbase : part (fun _ => 1) m.base = 1 ∨ part (fun _ => 1) m.base = 0 ∧ m.index ≠ none := by
    unfold usesRegister at huses
    cases hm : m.base with
    | none =>
        refine .inr ⟨rfl, ?_⟩
        intro hnone
        simp [hm, hnone] at huses
    | some r =>
        rcases h.base r hm with hr | ⟨rfl, hnone⟩
        · exact .inl (part_of_ne_instructionPointer hr _)
        · simp [hm, hnone, Register.isInstructionPointer] at huses
  have hscaled : ∀ b : UInt64, b = 1 ∨ b = 0 →
      0 < (b + 1 * UInt64.ofNat m.scale).toNat ∧ (b + 1 * UInt64.ofNat m.scale).toNat ≤ 9 := by
    have hscale := h.scale
    simp only [List.mem_cons, List.not_mem_nil, or_false] at hscale
    rintro b (rfl | rfl) <;> rcases hscale with hs | hs | hs | hs <;> rw [hs] <;> decide
  unfold registerSum
  rcases hindex with hi | hi
  · rcases hbase with hb | ⟨_, hsome⟩
    · rw [hb, hi]
      simp [part]
    · exact absurd hi hsome
  · rw [hi]
    exact hscaled _ (hbase.imp_right And.left)

/-- With other registers the address depends on what they hold. -/
theorem not_resolves (h : m.WellFormed) (huses : m.usesRegister = true) (a : UInt64) :
    ¬ m.Resolves a := by
  intro hresolves
  have hzero : ∀ r, part (fun _ => 0) r = 0 := by
    intro r
    unfold part
    split <;> rfl
  have hzeros : m.effective (fun _ => 0) = m.address.truncate m.displacement := by
    unfold effective registerSum
    rw [hzero, hzero, UInt64.zero_mul, UInt64.zero_add, UInt64.zero_add]
  have hones : m.effective (fun _ => 1) = m.address.truncate m.displacement := by
    rw [hresolves, ← hzeros, hresolves]
  rcases h.registerSum_one_bounds huses with ⟨hpos, hle⟩
  exact Width.truncate_add_ne h.address_ne m.displacement hpos (hle.trans_lt (by decide)) hones

/-- Memory stands for one address exactly if no register but the instruction pointer is part of it,
and then for the number that it is written with. -/
theorem resolves_iff (h : m.WellFormed) (a : UInt64) :
    m.Resolves a ↔ m.usesRegister = false ∧ m.displacement = a := by
  constructor
  · intro hresolves
    cases huses : m.usesRegister with
    | true => exact absurd hresolves (h.not_resolves huses a)
    | false =>
        refine ⟨rfl, ?_⟩
        rw [← h.effective_of_usesRegister_eq_false huses (fun _ => 0), hresolves]
  · rintro ⟨huses, rfl⟩
    exact h.effective_of_usesRegister_eq_false huses

theorem place (h : m.WellFormed) (next : UInt64) : (m.place next).WellFormed := by
  unfold Memory.place
  split
  · exact ⟨h.address_ne, h.base, h.index, h.scale, Width.truncate_truncate _ _⟩
  · exact h

end Memory.WellFormed

/-- Memory is addressed in one of the ways of the two instruction sets. -/
def Disassembler.FormsMemory (d : Disassembler) : Prop :=
  ∀ ⦃b address bytes p⦄, d.decode? b address bytes = some p →
    ∀ m, .memory m ∈ p.instruction.operands → m.WellFormed

/-!
# Reading memory operands
-/

namespace Decode

open Reader

theorem displacement_truncated {address : Width} {size : DisplacementSize}
    {bytes rest : List UInt8} {d : UInt64}
    (h : (displacement address size).run bytes = some (d, rest)) : address.truncate d = d := by
  cases size with
  | none =>
      rw [← (run_done_some h).1]
      cases address <;> rfl
  | byte =>
      rcases run_monad_bind_some h with ⟨v, mid, _, hdone⟩
      rw [← (run_done_some hdone).1, Width.truncate_truncate]
  | full =>
      rcases run_monad_bind_some h with ⟨v, mid, _, hdone⟩
      rw [← (run_done_some hdone).1, Width.truncate_truncate]

theorem memoryAt_wellFormed {address : Width} {base index : Option Register} {scale : Nat}
    {size : DisplacementSize} (haddress : address ≠ .byte)
    (hbase : ∀ r, base = some r →
      r.isInstructionPointer = false ∨ r = .instructionPointer address ∧ index = none)
    (hindex : ∀ r, index = some r → r.isInstructionPointer = false) (hscale : scale ∈ [1, 2, 4, 8])
    {bytes rest : List UInt8} {m : Memory}
    (h : (memoryAt address base index scale size).run bytes = some (m, rest)) :
    m.WellFormed := by
  rcases run_monad_bind_some h with ⟨d, mid, hd, hdone⟩
  rw [← (run_done_some hdone).1]
  exact ⟨haddress, hbase, hindex, hscale, displacement_truncated hd⟩

theorem isInstructionPointer_wordPair (n : Nat) :
    (∀ r, (wordPair n).1 = some r → r.isInstructionPointer = false) ∧
      ∀ r, (wordPair n).2 = some r → r.isInstructionPointer = false := by
  unfold wordPair
  split <;>
    simp [Register.bx, Register.bp, Register.si, Register.di, Register.isInstructionPointer]

theorem isInstructionPointer_ofNumber (w : Width) (rex : Bool) (n : Nat) :
    (Register.ofNumber w rex n).isInstructionPointer = false := by
  unfold Register.ofNumber
  split <;> rfl

theorem scaleOf_mem (n : Nat) : scaleOf n ∈ [1, 2, 4, 8] := by
  unfold scaleOf
  split <;> decide

theorem addressWidth_ne_byte (long : Bool) (p : Prefixes) : p.addressWidth long ≠ .byte := by
  unfold Prefixes.addressWidth
  split <;> decide

theorem wordMemory_wellFormed {y : ModRM} {bytes rest : List UInt8} {m : Memory}
    (h : (wordMemory y).run bytes = some (m, rest)) : m.WellFormed := by
  unfold wordMemory at h
  split at h
  · exact memoryAt_wellFormed (by decide) (by simp) (by simp) (by decide) h
  · rcases isInstructionPointer_wordPair y.rm with ⟨hbase, hindex⟩
    exact memoryAt_wellFormed (by decide) (fun r hr => .inl (hbase r hr)) hindex (by decide) h

theorem scaledMemory_wellFormed {p : Prefixes} {address : Width} (haddress : address ≠ .byte)
    {y : ModRM} {bytes rest : List UInt8} {m : Memory}
    (h : (scaledMemory p address y).run bytes = some (m, rest)) : m.WellFormed := by
  rcases run_monad_bind_some h with ⟨b, mid, _, hrest⟩
  have hindex : ∀ n r, (if n = 4 then none else some (Register.ofNumber address true n)) =
      some r → r.isInstructionPointer = false := by
    intro n r hr
    split at hr
    · cases hr
    · cases hr
      exact isInstructionPointer_ofNumber address true n
  dsimp only at hrest
  split at hrest
  · exact memoryAt_wellFormed haddress (by simp) (hindex _) (scaleOf_mem _) hrest
  · refine memoryAt_wellFormed haddress ?_ (hindex _) (scaleOf_mem _) hrest
    intro r hr
    cases hr
    exact .inl (isInstructionPointer_ofNumber _ _ _)

theorem memory_wellFormed {long : Bool} {p : Prefixes} {y : ModRM} {bytes rest : List UInt8}
    {m : Memory} (h : (memory long p y).run bytes = some (m, rest)) : m.WellFormed := by
  have haddress := addressWidth_ne_byte long p
  unfold memory at h
  dsimp only at h
  split_ifs at h
  · exact wordMemory_wellFormed h
  · exact scaledMemory_wellFormed haddress h
  · exact memoryAt_wellFormed haddress (by simp) (by simp) (by decide) h
  · exact memoryAt_wellFormed haddress (by simp) (by simp) (by decide) h
  · refine memoryAt_wellFormed haddress ?_ (by simp) (by decide) h
    intro r hr
    cases hr
    exact .inl (isInstructionPointer_ofNumber _ _ _)

/-!
# Operands of decoded instructions
-/

namespace Fields

variable {x : Fields}

/-- The operand is one that can be read for this place. -/
def Reads (x : Fields) (k : Kind) (o : Operand) : Prop :=
  ∃ bytes rest, (x.operand k).run bytes = some (o, rest)

theorem operands_reads {kinds : List Kind} {bytes rest : List UInt8} {os : List Operand}
    (h : (x.operands kinds).run bytes = some (os, rest)) : List.Forall₂ x.Reads kinds os := by
  induction kinds generalizing bytes rest os with
  | nil =>
      rw [← (run_done_some h).1]
      exact .nil
  | cons k ks ih =>
      rcases run_monad_bind_some h with ⟨o, mid, ho, hrest⟩
      rcases run_monad_bind_some hrest with ⟨tail, mid', htail, hdone⟩
      rw [← (run_done_some hdone).1]
      exact .cons ⟨bytes, mid, ho⟩ (ih htail)

theorem either_memory (hx : x.IsRead) {w : Width} {bytes rest : List UInt8} {m : Memory}
    (h : (x.either w).run bytes = some (.memory m, rest)) : m.WellFormed := by
  unfold either at h
  split at h
  · cases (run_done_some h).1
  · rename_i hplace
    cases (run_done_some h).1
    rcases hx m hplace with ⟨y, _, _, hmemory⟩
    exact memory_wellFormed hmemory

theorem indirect_memory (hx : x.IsRead) {bytes rest : List UInt8} {m : Memory}
    (h : x.indirect.run bytes = some (.memory m, rest)) : m.WellFormed := by
  unfold indirect at h
  split at h
  · cases h
  · rename_i hplace
    cases (run_done_some h).1
    rcases hx m hplace with ⟨y, _, _, hmemory⟩
    exact memory_wellFormed hmemory

/-- Memory is described by the ModRM byte, or by the opcode with a number behind it or without. -/
theorem reads_memory (hx : x.IsRead) {k : Kind} {m : Memory} (h : x.Reads k (.memory m)) :
    m.WellFormed := by
  have haddress := addressWidth_ne_byte x.long x.prefixes
  rcases h with ⟨bytes, rest, hrun⟩
  cases k with
  | rm w | selector w | lowWord w => exact either_memory hx hrun
  | memory w | pointer w | pair w => exact indirect_memory hx hrun
  | absolute w =>
      rcases run_monad_bind_some hrun with ⟨offset, mid, hoffset, hdone⟩
      cases (run_done_some hdone).1
      have hlt := number_lt (by cases x.prefixes.addressWidth x.long <;> decide) hoffset
      exact ⟨haddress, by simp, by simp, List.mem_cons_self, Width.truncate_of_lt hlt⟩
  | table =>
      cases (run_done_some hrun).1
      refine ⟨haddress, ?_, by simp, List.mem_cons_self, Width.truncate_zero _⟩
      intro r hr
      cases hr
      exact .inl rfl
  | direct w =>
      change (x.direct w).run bytes = _ at hrun
      unfold direct at hrun
      split at hrun
      · cases (run_done_some hrun).1
      · cases hrun
  | segment =>
      simp only [operand] at hrun
      split at hrun
      · cases (run_done_some hrun).1
      · cases hrun
  | immediate stored value | relative stored target =>
      rcases run_monad_bind_some hrun with ⟨v, mid, _, hdone⟩
      cases (run_done_some hdone).1
  | farPointer w =>
      rcases run_monad_bind_some hrun with ⟨offset, mid, _, hselector⟩
      rcases run_monad_bind_some hselector with ⟨selector, _, _, hdone⟩
      cases (run_done_some hdone).1
  | other name => cases hrun
  | _ => cases (run_done_some hrun).1

end Fields
end Decode

theorem Operand.place_eq_memory {o : Operand} {next : UInt64} {m : Memory}
    (h : o.place next = .memory m) : ∃ m', o = .memory m' ∧ m = m'.place next := by
  cases o with
  | memory m' =>
      cases h
      exact ⟨m', rfl, rfl⟩
  | _ => cases h

theorem Disassembler.generalPurpose_formsMemory : generalPurpose.FormsMemory := by
  intro b address bytes p h m hm
  rcases Placed.decode?_some h with ⟨i, rest, hrun, rfl⟩
  rcases List.mem_map.mp hm with ⟨o, ho, hplace⟩
  rcases Operand.place_eq_memory hplace with ⟨m', rfl, rfl⟩
  rcases Decode.instruction_operands hrun with ⟨x, mid, rest', hx, hoperands⟩
  have hreads := Decode.Fields.operands_reads hoperands
  rcases Outcome.exists_of_mem hreads ho with ⟨k, _, hread⟩
  exact (Decode.Fields.reads_memory hx hread).place _

end JumpHooks
