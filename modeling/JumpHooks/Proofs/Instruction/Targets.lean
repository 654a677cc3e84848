import JumpHooks.Proofs.Instruction.Reading
import Mathlib.Tactic.SplitIfs

/-!
# Targets in 64-bit code

Whatever stands in front of an opcode, a near branch of 64-bit code goes to an address of full
width. Only the rows of branches have an operand that is a distance, and all of them take the
width of its target from one place.
-/

namespace JumpHooks

/-!
# Forms of an entry
-/

/-- The entry can stand for the form. -/
def Entry.Yields : Entry → Form → Prop
  | .undefined, _ => False
  | .plain form, f => form = f
  | .modRM choose, f => ∃ x, choose x = some f
  | .registers choose, f => ∃ n, choose n = some f

/-- If these places are those of a near branch, its target has full width. -/
def Kind.FullBranch (kinds : List Kind) : Prop :=
  ∀ stored target, kinds = [.relative stored target] → target = .qword

def Form.FullTarget (f : Form) : Prop :=
  Kind.FullBranch f.kinds

def Entry.FullTargets (e : Entry) : Prop :=
  ∀ f, e.Yields f → f.FullTarget

namespace OpcodeMap

section Kinds

variable {opcode : Nat} {w : Width} {mnemonic : Mnemonic} {kinds : List Kind}

@[simp] theorem fullBranch_nil : Kind.FullBranch [] := by
  intro stored target h
  cases h

@[simp] theorem fullBranch_singleton {k : Kind} :
    Kind.FullBranch [k] ↔ ∀ stored target, k = .relative stored target → target = .qword := by
  simp [Kind.FullBranch]

@[simp] theorem fullBranch_cons_cons (k l : Kind) (kinds : List Kind) :
    Kind.FullBranch (k :: l :: kinds) := by
  intro stored target h
  cases h

@[simp] theorem fullTarget_mk {marker : Option Repeat} {digit : Option Nat} {v : Option Width} :
    (Form.mk marker opcode digit v mnemonic kinds).FullTarget ↔ Kind.FullBranch kinds :=
  Iff.rfl

@[simp] theorem fullTarget_sized :
    (sized opcode w mnemonic kinds).FullTarget ↔ Kind.FullBranch kinds :=
  Iff.rfl

@[simp] theorem fullTarget_unsized :
    (unsized opcode mnemonic kinds).FullTarget ↔ Kind.FullBranch kinds :=
  Iff.rfl

@[simp] theorem fullTarget_system {digit : Option Nat} {o : SystemOperation} :
    (system opcode digit o kinds).FullTarget ↔ Kind.FullBranch kinds :=
  Iff.rfl

@[simp] theorem fullTarget_sizedSystem {digit : Option Nat} {o : SystemOperation} :
    (sizedSystem opcode digit w o kinds).FullTarget ↔ Kind.FullBranch kinds :=
  Iff.rfl

@[simp] theorem fullTarget_marked {m : Mode} {f : Form} :
    (marked m f).FullTarget ↔ f.FullTarget :=
  Iff.rfl

end Kinds

@[simp] theorem fullTargets_undefined : Entry.undefined.FullTargets := by
  intro f h
  cases h

@[simp] theorem fullTargets_plain {f : Form} : (Entry.plain f).FullTargets ↔ f.FullTarget := by
  simp [Entry.FullTargets, Entry.Yields]

theorem fullTargets_modRM {choose : ModRM → Option Form} :
    (Entry.modRM choose).FullTargets ↔ ∀ x f, choose x = some f → f.FullTarget := by
  constructor
  · intro h x f hf
    exact h f ⟨x, hf⟩
  · intro h f hf
    rcases hf with ⟨x, hx⟩
    exact h x f hx

theorem fullTargets_registers {choose : Nat → Option Form} :
    (Entry.registers choose).FullTargets ↔ ∀ n f, choose n = some f → f.FullTarget := by
  constructor
  · intro h n f hf
    exact h f ⟨n, hf⟩
  · intro h f hf
    rcases hf with ⟨n, hn⟩
    exact h n f hn

@[simp] theorem fullTargets_operands {f : Form} :
    (operands f).FullTargets ↔ f.FullTarget := by
  rw [operands, fullTargets_modRM]
  constructor
  · intro h
    exact h (ModRM.ofByte 0) f rfl
  · intro h x g hg
    cases hg
    exact h

theorem fullTargets_digits {opcode : Nat} {w : Width}
    {row : Nat → Option (Mnemonic × List Kind)}
    (h : ∀ d mnemonic kinds, row d = some (mnemonic, kinds) → Kind.FullBranch kinds) :
    (digits opcode w row).FullTargets := by
  rw [digits, fullTargets_modRM]
  intro x f hf
  rcases Option.map_eq_some_iff.mp hf with ⟨⟨mnemonic, kinds⟩, hrow, heq⟩
  cases heq
  exact h x.reg mnemonic kinds hrow

section Long

variable {m : Mode}

@[simp] theorem fullTargets_compatibility (hm : m.long = true) (e : Entry) :
    (compatibility m e).FullTargets := by
  simp [compatibility, hm]

/-- The rows of branches take the width of the target from the mode alone. -/
@[simp] theorem fullTargets_jump (hm : m.long = true) (opcode : Nat) (mnemonic : Mnemonic)
    (distance : Width) : (jump m opcode mnemonic distance).FullTargets := by
  simp [jump, Mode.branch, hm]

/-!
# Opcodes of one byte
-/

theorem fullTargets_lowOpcode (hm : m.long = true) (opcode : Nat) :
    (lowOpcode m opcode).FullTargets := by
  unfold lowOpcode
  split <;> simp [hm]

theorem fullTargets_arithmeticColumn (m : Mode) (opcode : Nat) (mnemonic : Mnemonic)
    (column : Nat) : (arithmeticColumn m opcode mnemonic column).FullTargets := by
  unfold arithmeticColumn
  split <;> simp

@[simp] theorem fullTargets_arithmeticImmediate (opcode : Nat) (w stored : Width) :
    (arithmeticImmediate opcode w stored).FullTargets := by
  apply fullTargets_digits
  rintro d mnemonic kinds hrow
  cases hrow
  simp

@[simp] theorem fullTargets_shiftBy (opcode : Nat) (w : Width) (count : Kind) :
    (shiftBy opcode w count).FullTargets := by
  apply fullTargets_digits
  rintro d mnemonic kinds hrow
  cases hrow
  simp

theorem fullTargets_exchange (m : Mode) (column : Nat) : (exchange m column).FullTargets := by
  unfold exchange
  split
  · simp
  · split <;> simp

@[simp] theorem fullTargets_unary (opcode : Nat) (w v : Width) :
    (digits opcode w (unaryRow v)).FullTargets := by
  apply fullTargets_digits
  intro d mnemonic kinds hrow
  unfold unaryRow at hrow
  split at hrow <;> cases hrow <;> simp

@[simp] theorem fullTargets_byteStep (opcode : Nat) (w : Width) :
    (digits opcode w byteStepRow).FullTargets := by
  apply fullTargets_digits
  intro d mnemonic kinds hrow
  unfold byteStepRow at hrow
  split at hrow <;> cases hrow <;> simp

@[simp] theorem fullTargets_transfer (m : Mode) : (transfer m).FullTargets := by
  rw [transfer, fullTargets_modRM]
  intro x f hf
  split at hf <;> cases hf <;> simp

theorem fullTargets_storeImmediate {last : Form} (h : last.FullTarget) (opcode : Nat)
    (w : Width) : (storeImmediate opcode w last).FullTargets := by
  rw [storeImmediate, fullTargets_modRM]
  intro x f hf
  split at hf
  · cases hf
    simp
  · split at hf <;> cases hf
    exact h

theorem fullTargets_middleOpcode (hm : m.long = true) (opcode : Nat) :
    (middleOpcode m opcode).FullTargets := by
  unfold middleOpcode
  split <;> try simp [simple, hm]
  -- Two rows choose by the digit themselves.
  · rw [fullTargets_modRM]
    intro x f hf
    split at hf <;> cases hf
    simp
  · apply fullTargets_digits
    intro d mnemonic kinds hrow
    split at hrow <;> cases hrow
    simp

theorem fullTargets_highOpcode (hm : m.long = true) (opcode : Nat) :
    (highOpcode m opcode).FullTargets := by
  unfold highOpcode
  split <;> try simp [simple, hm]
  · apply fullTargets_storeImmediate
    simp [transactionAbort]
  · apply fullTargets_storeImmediate
    simp [transactionBegin, Mode.native, hm]

theorem fullTargets_ite {c : Prop} [Decidable c] {a e : Entry} (ha : a.FullTargets)
    (he : e.FullTargets) : (if c then a else e).FullTargets := by
  split
  · exact ha
  · exact he

theorem fullTargets_primary (hm : m.long = true) (opcode : Nat) :
    (primary m opcode).FullTargets := by
  have hmiddle := fullTargets_middleOpcode hm opcode
  unfold primary
  repeat' with_reducible apply fullTargets_ite
  · exact fullTargets_arithmeticColumn m _ _ _
  · exact fullTargets_lowOpcode hm opcode
  · simp
  · simp
  · simp
  · simp
  · exact hmiddle
  · exact fullTargets_jump hm _ _ _
  · exact hmiddle
  · exact fullTargets_exchange m _
  · exact hmiddle
  · simp
  · simp
  · exact fullTargets_highOpcode hm opcode

end Long

/-!
# System operations
-/

section System

variable {m : Mode} {f : Form}

@[simp] theorem longOnly_eq_some {α : Type} {a b : α} :
    longOnly m a = some b ↔ m.long = true ∧ a = b := by
  unfold longOnly
  cases m.long <;> simp

theorem fullTarget_controlForm (m : Mode) (low : Nat) (o : SystemOperation) :
    (controlForm m low o).FullTarget := by
  rw [controlForm, fullTarget_mk]
  unfold controlKinds
  split <;> simp

theorem fullTarget_control {low : Nat} (h : control m low = some f) : f.FullTarget := by
  unfold control at h
  split at h
  · cases h
    exact fullTarget_controlForm m low _
  · rcases Option.map_eq_some_iff.mp h with ⟨o, _, heq⟩
    rw [← heq, fullTarget_marked]
    exact fullTarget_controlForm m low o

theorem fullTarget_tableRegister (m : Mode) (digit : Nat) (o : SystemOperation) :
    (tableRegister m digit o).FullTarget := by
  rw [tableRegister, fullTarget_sizedSystem]
  split <;> simp

theorem fullTarget_machineRow {digit : Nat} (h : machineRow m digit = some f) :
    f.FullTarget := by
  unfold machineRow at h
  split at h
  case h_6 =>
    split at h <;> cases h
    simp
  case h_5 | h_7 | h_8 =>
    cases h
    simp
  all_goals
    cases h
    exact fullTarget_tableRegister m _ _

@[simp] theorem fullTargets_descriptorGroup (m : Mode) : (descriptorGroup m).FullTargets := by
  rw [descriptorGroup, fullTargets_modRM]
  intro x f hf
  split at hf
  case h_7 =>
    split at hf
    · rcases longOnly_eq_some.mp hf with ⟨_, rfl⟩
      simp
    · cases hf
  all_goals
    cases hf <;> simp

@[simp] theorem fullTargets_machineGroup (m : Mode) : (machineGroup m).FullTargets := by
  rw [machineGroup, fullTargets_modRM]
  intro x f hf
  split_ifs at hf
  · cases hf
    simp
  · exact fullTarget_control hf
  · exact fullTarget_machineRow hf

@[simp] theorem fullTargets_segmentField (m : Mode) (opcode : Nat) (o : SystemOperation) :
    (segmentField m opcode o).FullTargets := by
  simp [segmentField]

/-- Moves name registers only, whichever registers they are. -/
theorem fullTargets_machineMove {kinds : List Kind}
    (h : Kind.FullBranch kinds) (m : Mode) (opcode : Nat)
    (isNumber : Nat → Bool) : (machineMove m opcode isNumber kinds).FullTargets := by
  rw [machineMove, fullTargets_registers]
  intro n f hf
  split at hf <;> cases hf
  exact h

theorem fullTarget_stateMemory {s : Selector} {digit : Nat}
    (h : stateMemory m s digit = some f) : f.FullTarget := by
  unfold stateMemory at h
  split at h <;> cases h <;> simp

theorem fullTarget_stateRegister {x : ModRM} {s : Selector} {digit : Nat}
    (h : stateRegister m x s digit = some f) : f.FullTarget := by
  unfold stateRegister baseMove at h
  split at h <;>
    simp only [longOnly_eq_some, Option.some.injEq, reduceCtorEq] at h <;>
    simp [← h]

@[simp] theorem fullTargets_stateGroup (m : Mode) : (stateGroup m).FullTargets := by
  rw [stateGroup, fullTargets_modRM]
  intro x f hf
  rcases Option.map_eq_some_iff.mp hf with ⟨g, hg, rfl⟩
  rw [fullTarget_marked]
  split at hg
  · exact fullTarget_stateRegister hg
  · exact fullTarget_stateMemory hg

theorem fullTarget_pointerMemory {s : Selector} {digit : Nat}
    (h : pointerMemory m s digit = some f) : f.FullTarget := by
  unfold pointerMemory at h
  split at h <;> cases h <;> simp

theorem fullTarget_processorRegister {digit : Nat} (h : processorRegister m digit = some f) :
    f.FullTarget := by
  unfold processorRegister at h
  split at h <;>
    simp only [longOnly_eq_some, Option.some.injEq, reduceCtorEq] at h <;>
    simp [← h]

@[simp] theorem fullTargets_runGroup (m : Mode) (opcode : Nat)
    (row : Selector → Nat → Option SystemOperation) : (runGroup m opcode row).FullTargets := by
  rw [runGroup, fullTargets_modRM]
  intro x f hf
  split at hf
  · rcases Option.map_eq_some_iff.mp hf with ⟨o, _, rfl⟩
    simp
  · cases hf

theorem fullTargets_machineField {kinds : List Kind}
    (h : Kind.FullBranch kinds) (m : Mode) (opcode : Nat)
    (o : SystemOperation) : (machineField m opcode o kinds).FullTargets := by
  unfold machineField
  split <;> simp [h]

@[simp] theorem fullTargets_forget (m : Mode) (opcode : Nat) (o : SystemOperation) :
    (forget m opcode o).FullTargets := by
  unfold forget
  split <;> simp

@[simp] theorem fullTarget_shadowStore (m : Mode) (opcode : Nat) (o : SystemOperation) :
    (shadowStore m opcode o).FullTarget := by
  simp [shadowStore]

end System

/-!
# Opcodes of two bytes
-/

section Secondary

variable {m : Mode}

@[simp] theorem fullTargets_bitTest (m : Mode) (opcode : Nat) (mnemonic : Mnemonic) :
    (bitTest m opcode mnemonic).FullTargets := by
  simp [bitTest]

@[simp] theorem fullTargets_bitRow (opcode : Nat) (w v : Width) :
    (digits opcode w (bitRow v)).FullTargets := by
  apply fullTargets_digits
  intro d mnemonic kinds hrow
  unfold bitRow at hrow
  split at hrow <;> cases hrow <;> simp

@[simp] theorem fullTargets_search (m : Mode) (opcode : Nat) (mnemonic counting : Mnemonic) :
    (search m opcode mnemonic counting).FullTargets := by
  unfold search
  split <;> simp

theorem fullTarget_randomRow {w : Width} {digit : Nat} {f : Form}
    (h : randomRow w digit = some f) : f.FullTarget := by
  unfold randomRow at h
  split at h <;> cases h <;> simp

@[simp] theorem fullTargets_compareWide (m : Mode) : (compareWide m).FullTargets := by
  rw [compareWide, fullTargets_modRM]
  intro x f hf
  split at hf
  · split at hf
    · rcases Option.map_eq_some_iff.mp hf with ⟨g, hg, rfl⟩
      rw [fullTarget_marked]
      exact fullTarget_processorRegister hg
    · cases hf
    · exact fullTarget_randomRow hf
  · split at hf
    · cases hf
      simp
    · rcases Option.map_eq_some_iff.mp hf with ⟨g, hg, rfl⟩
      rw [fullTarget_marked]
      exact fullTarget_pointerMemory hg

@[simp] theorem fullTarget_reservedNop (m : Mode) (opcode : Nat) :
    (reservedNop m opcode).FullTarget := by
  simp [reservedNop]

@[simp] theorem fullTarget_prefetchForm (opcode digit : Nat) (hint : PrefetchHint) :
    (prefetchForm opcode digit hint).FullTarget := by
  simp [prefetchForm]

@[simp] theorem fullTargets_prefetchWrite (m : Mode) : (prefetchWrite m).FullTargets := by
  rw [prefetchWrite, fullTargets_modRM]
  intro x f hf
  cases hf
  split <;> simp

@[simp] theorem fullTargets_prefetchRead (m : Mode) : (prefetchRead m).FullTargets := by
  rw [prefetchRead, fullTargets_modRM]
  intro x f hf
  split at hf <;> cases hf <;> simp

@[simp] theorem fullTargets_demote (m : Mode) : (demote m).FullTargets := by
  rw [demote, fullTargets_modRM]
  intro x f hf
  split at hf <;> cases hf
  · simp
  · simp

@[simp] theorem fullTargets_tracking (m : Mode) : (tracking m).FullTargets := by
  rw [tracking, fullTargets_modRM]
  intro x f hf
  split_ifs at hf <;> cases hf <;>
    simp [reservedNop]

@[simp] theorem fullTargets_longNop (m : Mode) : (longNop m).FullTargets := by
  rw [longNop, fullTargets_modRM]
  intro x f hf
  cases hf
  split <;> simp [reservedNop]

@[simp] theorem fullTargets_writeBack (m : Mode) : (writeBack m).FullTargets := by
  unfold writeBack
  split <;> simp

@[simp] theorem fullTargets_directStore (m : Mode) (opcode : Nat) (mnemonic : Mnemonic) :
    (directStore m opcode mnemonic).FullTargets := by
  unfold directStore
  split <;> simp

@[simp] theorem fullTargets_loadFar (m : Mode) (opcode : Nat) (mnemonic : Mnemonic) :
    (loadFar m opcode mnemonic).FullTargets := by
  simp [loadFar]

theorem fullTargets_secondaryOpcode (m : Mode) (opcode : Nat) :
    (secondaryOpcode m opcode).FullTargets := by
  unfold secondaryOpcode
  split <;> try simp [simple, pushSegment, popSegment, fullTargets_machineMove,
    fullTargets_machineField]
  · split <;> simp
  · split <;> simp

theorem fullTargets_secondary (hm : m.long = true) (opcode : Nat) :
    (secondary m opcode).FullTargets := by
  unfold secondary
  repeat' with_reducible apply fullTargets_ite
  · simp
  · exact fullTargets_jump hm _ _ _
  · simp
  · simp
  · exact fullTargets_secondaryOpcode m opcode

end Secondary

/-!
# Opcodes of three bytes
-/

section Tertiary

variable (m : Mode)

theorem fullTargets_checksumOrSwap {swap : List Kind}
    (h : Kind.FullBranch swap) (opcode : Nat) (w : Width) :
    (checksumOrSwap m opcode w swap).FullTargets := by
  unfold checksumOrSwap
  split <;> simp [h]

theorem fullTargets_carryOrShadow : (carryOrShadow m).FullTargets := by
  unfold carryOrShadow
  split <;> simp [shadowStore]

theorem fullTargets_blockStore : (blockStore m).FullTargets := by
  unfold blockStore
  dsimp only
  split <;> simp

theorem fullTargets_remote : (remote m).FullTargets := by
  simp [remote]

theorem fullTargets_tertiary (opcode : Nat) : (tertiary m opcode).FullTargets := by
  unfold tertiary
  split
  · exact fullTargets_forget m _ _
  · exact fullTargets_forget m _ _
  · exact fullTargets_forget m _ _
  · exact fullTargets_checksumOrSwap m (by simp) _ _
  · exact fullTargets_checksumOrSwap m (by simp) _ _
  · split <;> simp
  · exact fullTargets_carryOrShadow m
  · exact fullTargets_blockStore m
  · exact fullTargets_directStore m _ _
  · exact fullTargets_remote m
  · exact fullTargets_undefined

theorem fullTargets_immediateTertiary (opcode : Nat) :
    (immediateTertiary m opcode).FullTargets := by
  unfold immediateTertiary
  split
  · rw [fullTargets_modRM]
    intro x f hf
    split at hf <;> cases hf
    simp
  · exact fullTargets_undefined

end Tertiary
end OpcodeMap

/-!
# Decoded instructions
-/

namespace Decode

open Reader OpcodeMap

/-- Every map of 64-bit code has full targets only. -/
theorem entry_fullTargets {m : Mode} (hm : m.long = true) {first : UInt8}
    {bytes rest : List UInt8} {e : Entry} {opcode : Nat}
    (h : (entry m first).run bytes = some ((e, opcode), rest)) : e.FullTargets := by
  unfold entry at h
  split at h
  · cases bytes with
    | nil => cases h
    | cons second bytes =>
        dsimp only [Reader.run] at h
        split_ifs at h
        · cases bytes with
          | nil => cases h
          | cons third bytes =>
              cases h
              exact fullTargets_tertiary m _
        · cases bytes with
          | nil => cases h
          | cons third bytes =>
              cases h
              exact fullTargets_immediateTertiary m _
        · cases h
          exact fullTargets_secondary hm _
  · cases h
    exact fullTargets_primary hm _

theorem Fields.instruction_form {x : Fields} {form : Form} {bytes rest : List UInt8}
    {i : Instruction} (h : (x.instruction form).run bytes = some (i, rest)) : i.form = form := by
  rcases run_monad_bind_some h with ⟨os, mid, _, hlast⟩
  dsimp only at hlast
  split at hlast
  · cases hlast
  · rw [← (run_done_some hlast).1]

/-- Near branches of 64-bit code go to addresses of full width. -/
theorem instruction_fullTarget {bytes rest : List UInt8} {i : Instruction}
    (h : (Decode.instruction true).run bytes = some (i, rest)) : i.form.FullTarget := by
  rcases run_monad_bind_some h with ⟨⟨p, first⟩, mid, _, hprefixed⟩
  rcases run_monad_bind_some hprefixed with ⟨⟨e, opcode⟩, mid', he, hentry⟩
  have hfull : e.FullTargets := entry_fullTargets rfl he
  cases e with
  | undefined => cases hentry
  | plain form =>
      rw [Fields.instruction_form hentry]
      exact fullTargets_plain.mp hfull
  | modRM choose =>
      rcases run_monad_bind_some hentry with ⟨b, mid'', _, hchosen⟩
      dsimp only at hchosen
      split at hchosen
      · cases hchosen
      · rename_i form hchoose
        rcases run_monad_bind_some hchosen with ⟨place, _, _, hform⟩
        rw [Fields.instruction_form hform]
        exact fullTargets_modRM.mp hfull _ _ hchoose
  | registers choose =>
      rcases run_monad_bind_some hentry with ⟨b, mid'', _, hchosen⟩
      dsimp only at hchosen
      split at hchosen
      · cases hchosen
      · rename_i form hchoose
        rw [Fields.instruction_form hchosen]
        exact fullTargets_registers.mp hfull _ _ hchoose

end Decode
end JumpHooks
