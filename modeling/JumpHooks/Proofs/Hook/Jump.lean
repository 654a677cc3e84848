import JumpHooks.Proofs.Bytes.Numbers
import JumpHooks.Proofs.Code.Outcomes
import JumpHooks.Proofs.Hook.Cover
import Mathlib.Tactic.IntervalCases

/-!
# The jump of a stub

A stub with the address of a handler in its field is read back as the instructions that it was
made of: the load of this address, cut to the width of a pointer, the jump through the register
that was loaded, and padding to the end.
-/

namespace JumpHooks

open Reader

/-!
# The instructions of a stub
-/

namespace Decode

theorem run_moveImmediate {x : Fields} {w : Width} {bytes rest : List UInt8} {v : UInt64}
    (hbytes : (Reader.number w.bytes).run bytes = some (v, rest))
    (hsegment : x.prefixes.segment = none) (hlock : x.prefixes.lock = false)
    (hrepeating : x.prefixes.repeating = none) :
    (x.instruction (.moveImmediate w)).run bytes =
      some (.moveImmediate w (x.prefixes.register w Rex.base (x.opcode % 8))
        (w.truncate v), rest) := by
  have hoperands : (x.operands (Form.moveImmediate w).kinds).run bytes =
      some ([.register (x.prefixes.register w Rex.base (x.opcode % 8)),
        .immediate (w.truncate v)], rest) := by
    simp [Form.moveImmediate, Form.sized, Fields.operands, Fields.operand, run_monad_bind,
      hbytes, run_pure, run, Width.truncate_signed]
  unfold Fields.instruction
  rw [run_monad_bind, hoperands]
  simp [hsegment, hlock, hrepeating, Form.moveImmediate, Form.sized, run_pure,
    Instruction.moveImmediate, Instruction.plain]

end Decode

namespace HookStub

/-- The load of a handler's address. -/
def loadBytes : Bitness → UInt64 → List UInt8
  | .x64, handler => 0x48 :: 0xB8 :: littleEndian 8 handler
  | .x86, handler => 0xB8 :: littleEndian 4 handler

/-- The address of a handler, cut to the width of a pointer. -/
def target (b : Bitness) (handler : UInt64) : UInt64 :=
  UInt64.ofNat (handler.toNat % 2 ^ (8 * fieldLength b))

/-- What the byte in front of a 64-bit load says. -/
def wideOperand : Prefixes :=
  { Prefixes.empty with rex := some ⟨true, false, false, false⟩ }

theorem run_load64 (rest : List UInt8) :
    (Decode.instruction true).run (0x48 :: 0xB8 :: rest) =
      ((Decode.Fields.mk true wideOperand 0xB8 0 (.register 0)).instruction
        (.moveImmediate .qword)).run rest := by
  have hread : (Prefixes.read true 15 Prefixes.empty).run (0x48 :: 0xB8 :: rest) =
      some ((wideOperand, 0xB8), rest) := rfl
  unfold Decode.instruction
  rw [run_monad_bind, hread]
  rfl

theorem run_load32 (rest : List UInt8) :
    (Decode.instruction false).run (0xB8 :: rest) =
      ((Decode.Fields.mk false Prefixes.empty 0xB8 0 (.register 0)).instruction
        (.moveImmediate .dword)).run rest :=
  rfl

theorem run_loadBytes (b : Bitness) (handler : UInt64) :
    (Decode.instruction b.is64Bit).run (loadBytes b handler) =
      some (.moveImmediate b.pointer (.accumulator b.pointer) (target b handler), []) := by
  have hnumber : (Reader.number b.pointer.bytes).run
      (littleEndian (fieldLength b) handler) = some (target b handler, []) := by
    have hread := number_littleEndian (fieldLength b) handler []
    rw [List.append_nil] at hread
    exact hread
  have htarget : b.pointer.truncate (target b handler) = target b handler :=
    b.pointer.truncate_ofNat_mod handler.toNat
  cases b with
  | x64 =>
      have hload := Decode.run_moveImmediate (x := ⟨true, wideOperand, 0xB8, 0, .register 0⟩)
        hnumber rfl rfl rfl
      rw [htarget] at hload
      exact (run_load64 _).trans hload
  | x86 =>
      have hload := Decode.run_moveImmediate
        (x := ⟨false, Prefixes.empty, 0xB8, 0, .register 0⟩) hnumber rfl rfl rfl
      rw [htarget] at hload
      exact (run_load32 _).trans hload

theorem run_jumpBytes (b : Bitness) :
    (Decode.instruction b.is64Bit).run [0xFF, 0xE0] =
      some (.jump b.pointer (.accumulator b.pointer), []) := by
  cases b with
  | x64 => rfl
  | x86 => rfl

theorem run_padding (b : Bitness) :
    (Decode.instruction b.is64Bit).run [0x90] = some (.nop, []) := by
  cases b with
  | x64 => rfl
  | x86 => rfl

theorem decodes_cons {b : Bitness} {own more : List UInt8} {i : Instruction}
    (h : (Decode.instruction b.is64Bit).run own = some (i, []))
    (hle : own.length ≤ Instruction.maxLength) {address : UInt64} {ps : List Placed}
    (hmore : Decodes .generalPurpose b (address + UInt64.ofNat own.length) more ps []) :
    Decodes .generalPurpose b address (own ++ more)
      (⟨address, own.length, i.place (address + UInt64.ofNat own.length)⟩ :: ps) [] := by
  have hread : Disassembler.generalPurpose.decode? b address (own ++ more) =
      some ⟨address, own.length, i.place (address + UInt64.ofNat own.length)⟩ :=
    Placed.decode?_of_run h hle address more
  apply Decodes.cons hread
  rw [List.drop_left]
  exact hmore

theorem decodes_padding (b : Bitness) (address : UInt64) (n : Nat) :
    ∃ ps, Decodes .generalPurpose b address (List.replicate n 0x90) ps [] ∧
      ps.map Placed.instruction = List.replicate n .nop ∧
        ps.map Placed.length = List.replicate n 1 := by
  induction n generalizing address with
  | zero => exact ⟨[], .nil address _, rfl, rfl⟩
  | succ n ih =>
      rcases ih (address + UInt64.ofNat 1) with ⟨ps, hps, hinstructions, hlengths⟩
      refine ⟨_, decodes_cons (run_padding b) (by decide) hps, ?_, ?_⟩
      · rw [List.map_cons, hinstructions]
        rfl
      · rw [List.map_cons, hlengths]
        rfl

theorem length_loadBytes (b : Bitness) (handler : UInt64) :
    (loadBytes b handler).length = fieldStart b + fieldLength b := by
  cases b with
  | x64 => simp [loadBytes, length_littleEndian, fieldStart, fieldLength, Bitness.pointer,
      Width.bytes]
  | x86 => simp [loadBytes, length_littleEndian, fieldStart, fieldLength, Bitness.pointer,
      Width.bytes]

/-- The jump with `count` bytes of padding behind it, wherever it is loaded. -/
theorem decodes_jump (b : Bitness) (handler address : UInt64) (count : Nat) :
    ∃ ps, Decodes .generalPurpose b address
      (loadBytes b handler ++ ([0xFF, 0xE0] ++ List.replicate count 0x90)) ps [] ∧
        ps.map Placed.instruction =
          .moveImmediate b.pointer (.accumulator b.pointer) (target b handler) ::
            .jump b.pointer (.accumulator b.pointer) :: List.replicate count .nop ∧
          ps.map Placed.length =
            (fieldStart b + fieldLength b) :: 2 :: List.replicate count 1 := by
  have hle : (loadBytes b handler).length ≤ Instruction.maxLength := by
    rw [length_loadBytes]
    cases b with
    | x64 => decide
    | x86 => decide
  rcases decodes_padding b (address + UInt64.ofNat (loadBytes b handler).length +
    UInt64.ofNat 2) count with ⟨ps, hps, hinstructions, hlengths⟩
  refine ⟨_, decodes_cons (run_loadBytes b handler) hle
    (decodes_cons (run_jumpBytes b) (by decide) hps), ?_, ?_⟩
  · rw [List.map_cons, List.map_cons, hinstructions]
    rfl
  · rw [List.map_cons, List.map_cons, hlengths, length_loadBytes]
    rfl

/-!
# Assembled stubs
-/

theorem assemble_eq_ok {b : Bitness} {size : Nat} {s : HookStub} :
    assemble b size = .ok s ↔
      required b ≤ size ∧ s = ⟨b, jump b ++ List.replicate (size - required b) padding⟩ := by
  unfold assemble
  by_cases hsize : size < required b
  · rw [if_pos hsize]
    constructor
    · intro h
      cases h
    · intro h
      exact absurd hsize (Nat.not_lt.mpr h.1)
  · rw [if_neg hsize]
    constructor
    · intro h
      cases h
      exact ⟨Nat.not_lt.mp hsize, rfl⟩
    · intro h
      rw [h.2]

theorem bytes_padded (b : Bitness) (count : Nat) :
    (⟨b, jump b ++ List.replicate count padding⟩ : HookStub).bytes =
      loadBytes b 0 ++ ([0xFF, 0xE0] ++ List.replicate count 0x90) := by
  have hpadding : (List.replicate count padding).flatMap Encoded.code =
      List.replicate count 0x90 := by
    induction count with
    | zero => rfl
    | succ count ih => exact congrArg (List.cons 0x90) ih
  unfold bytes
  rw [List.flatMap_append, hpadding]
  cases b with
  | x64 => rfl
  | x86 => rfl

/-- Storing the address of a handler changes the load and nothing else. -/
theorem withHandler_padded (b : Bitness) (count : Nat) (handler : UInt64) :
    (⟨b, jump b ++ List.replicate count padding⟩ : HookStub).withHandler handler =
      loadBytes b handler ++ ([0xFF, 0xE0] ++ List.replicate count 0x90) := by
  unfold withHandler
  rw [bytes_padded]
  cases b with
  | x64 => rfl
  | x86 => rfl

theorem encodedSize_eq_length (body : List Encoded) :
    encodedSize body = (body.flatMap Encoded.code).length := by
  unfold encodedSize
  rw [List.length_flatMap]
  rfl

theorem required_eq_field (b : Bitness) : required b = fieldStart b + fieldLength b + 2 := by
  cases b with
  | x64 => rfl
  | x86 => rfl

theorem lengths_padded (b : Bitness) (count : Nat) :
    (jump b ++ List.replicate count padding).map (fun e => e.code.length) =
      (fieldStart b + fieldLength b) :: 2 :: List.replicate count 1 := by
  rw [List.map_append, List.map_replicate]
  cases b with
  | x64 => rfl
  | x86 => rfl

section Field

variable {s : HookStub} {handler : UInt64}
  (hinside : fieldStart s.bitness + fieldLength s.bitness ≤ s.bytes.length)
include hinside

theorem length_through_field :
    (s.bytes.take (fieldStart s.bitness) ++ littleEndian (fieldLength s.bitness) handler).length =
      fieldStart s.bitness + fieldLength s.bitness := by
  rw [List.length_append, List.length_take, length_littleEndian]
  lia

theorem length_withHandler : (s.withHandler handler).length = s.bytes.length := by
  unfold withHandler
  rw [List.length_append, length_through_field hinside, List.length_drop]
  exact Nat.add_sub_cancel' hinside

/-- Storing an address changes no byte outside the field. -/
theorem getElem?_withHandler {i : Nat}
    (hi : i < fieldStart s.bitness ∨ fieldStart s.bitness + fieldLength s.bitness ≤ i) :
    (s.withHandler handler)[i]? = s.bytes[i]? := by
  have hfield := @length_through_field s handler hinside
  unfold withHandler
  rcases hi with hbefore | hbehind
  · have hstart : i < (s.bytes.take (fieldStart s.bitness)).length := by
      rw [List.length_take]
      lia
    rw [List.append_assoc, List.getElem?_append_left hstart, List.getElem?_take_of_lt hbefore]
  · rw [List.getElem?_append_right (hfield.trans_le hbehind), hfield, List.getElem?_drop,
      Nat.add_sub_cancel' hbehind]

end Field

/-!
# What a stub does
-/

/-- The instructions of a jump to a handler with `count` bytes of padding. -/
def jumpTo (b : Bitness) (handler : UInt64) (count : Nat) : List Instruction :=
  .moveImmediate b.pointer (.accumulator b.pointer) (target b handler) ::
    .jump b.pointer (.accumulator b.pointer) :: List.replicate count .nop

/-- A stub of `size` bytes that becomes a jump to any handler. -/
structure IsJump (s : HookStub) (b : Bitness) (size : Nat) : Prop where
  bitness_eq : s.bitness = b
  size_eq : s.size = size
  code : (s.body.map Encoded.code).flatten = s.bytes
  length_bytes : s.bytes.length = size
  field_inside : fieldStart b + fieldLength b ≤ size
  field_zero : ∀ i, fieldStart b ≤ i → i < fieldStart b + fieldLength b → s.bytes[i]? = some 0
  length_withHandler : ∀ handler, (s.withHandler handler).length = size
  unchanged : ∀ handler i, i < fieldStart b ∨ fieldStart b + fieldLength b ≤ i →
    (s.withHandler handler)[i]? = s.bytes[i]?
  lengths : s.body.map (fun e => e.code.length) =
    (fieldStart b + fieldLength b) :: 2 :: List.replicate (size - required b) 1
  decoded : ∀ handler address, ∃ ps,
    sweep .generalPurpose b address 0 (s.withHandler handler) #[] = .ok ps ∧
      ps.toList.map Placed.instruction = jumpTo b handler (size - required b) ∧
        ps.toList.map Placed.length = s.body.map fun e => e.code.length

theorem isJump_padded {b : Bitness} {size : Nat} (hsize : required b ≤ size) :
    IsJump ⟨b, jump b ++ List.replicate (size - required b) padding⟩ b size := by
  have hassemble : assemble b size =
      .ok ⟨b, jump b ++ List.replicate (size - required b) padding⟩ :=
    assemble_eq_ok.mpr ⟨hsize, rfl⟩
  have hlength : (⟨b, jump b ++ List.replicate (size - required b) padding⟩ :
      HookStub).bytes.length = size :=
    (encodedSize_eq_length _).symm.trans (assemble_ok hassemble).2
  have hfield : fieldStart b + fieldLength b ≤ size := by
    rw [required_eq_field] at hsize
    lia
  constructor
  · rfl
  · exact (assemble_ok hassemble).2
  · exact (List.flatMap_def ..).symm
  · exact hlength
  · exact hfield
  · intro i hstart hend
    rw [bytes_padded, List.getElem?_append_left (by rw [length_loadBytes]; exact hend)]
    cases b with
    | x64 =>
        change 2 ≤ i at hstart
        change i < 10 at hend
        interval_cases i <;> rfl
    | x86 =>
        change 1 ≤ i at hstart
        change i < 5 at hend
        interval_cases i <;> rfl
  · intro handler
    rw [length_withHandler (by rw [hlength]; exact hfield)]
    exact hlength
  · intro handler i hi
    exact getElem?_withHandler (by rw [hlength]; exact hfield) hi
  · exact lengths_padded b _
  · intro handler address
    rcases decodes_jump b handler address (size - required b) with
      ⟨ps, hps, hinstructions, hlengths⟩
    refine ⟨ps.toArray, ?_, hinstructions, ?_⟩
    · rw [withHandler_padded]
      exact sweep_of_decodes hps
    · rw [lengths_padded]
      exact hlengths

/-- A stub is made for every size that has room for the jump, and it is this jump: whatever
address is stored and wherever it is loaded, it decodes to the load of this address, the jump
and the padding. -/
theorem assemble_jumps (b : Bitness) (size : Nat) :
    ((∃ s, assemble b size = .ok s) ↔ required b ≤ size) ∧
      ∀ s, assemble b size = .ok s → s.IsJump b size := by
  constructor
  · constructor
    · intro h
      rcases h with ⟨s, hs⟩
      exact (assemble_eq_ok.mp hs).1
    · intro hsize
      exact ⟨_, assemble_eq_ok.mpr ⟨hsize, rfl⟩⟩
  · intro s hs
    rcases assemble_eq_ok.mp hs with ⟨hsize, heq⟩
    rw [heq]
    exact isJump_padded hsize

theorem assemble_jumps_fourteen :
    assemble .x64 14 = .ok ⟨.x64, jump .x64 ++ [padding, padding]⟩ ∧
      IsJump ⟨.x64, jump .x64 ++ [padding, padding]⟩ .x64 14 := by
  have hassemble : assemble .x64 14 = .ok ⟨.x64, jump .x64 ++ [padding, padding]⟩ := rfl
  exact ⟨hassemble, (assemble_jumps .x64 14).2 _ hassemble⟩

end HookStub
end JumpHooks
