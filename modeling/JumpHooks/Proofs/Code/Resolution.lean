import JumpHooks.Proofs.Code.Outcomes
import JumpHooks.Proofs.Code.References
import JumpHooks.Proofs.Instruction.Addressing

/-!
# References and the addresses that operands stand for

The index takes memory by the number that it is written with. Without registers, or with the
instruction pointer alone, this is the address that the operand stands for. With other registers it
is no address at all, and is recorded all the same if it happens to lie in the image: in 32-bit
code a table that is indexed by a register, and in an image that begins at a small address any
place in a record.
-/

namespace JumpHooks

/-- The operand stands for the address `a`, whatever the registers hold: it is a near branch target,
or memory that is written as a number alone or as a distance from the instruction pointer. -/
inductive Operand.Fixes : Operand → UInt64 → Prop
  | target (w : Width) (a : UInt64) : Fixes (.target w a) a
  | memory {m : Memory} {a : UInt64} (form : m.isAbsolute = true ∨ m.isRelative = true)
      (resolves : m.Resolves a) : Fixes (.memory m) a

theorem Operand.Fixes.names {o : Operand} {a : UInt64} (h : o.Fixes a)
    (hmemory : ∀ m, o = .memory m → m.WellFormed) : o.Names a := by
  cases h with
  | target w => exact .target w a
  | @memory m _ form resolves =>
      rw [← (((hmemory m rfl).resolves_iff a).mp resolves).2]
      exact .memory m

/-- An operand is written with the address that it stands for, unless it is memory with a register
other than the instruction pointer. -/
theorem Operand.names_iff {o : Operand} (hmemory : ∀ m, o = .memory m → m.WellFormed)
    (a : UInt64) :
    o.Names a ↔ o.Fixes a ∨ ∃ m, o = .memory m ∧ m.usesRegister = true ∧ m.displacement = a := by
  constructor
  · intro h
    cases h with
    | target w => exact .inl (.target w a)
    | memory m =>
        have hm := hmemory m rfl
        cases huses : m.usesRegister with
        | true => exact .inr ⟨m, rfl, huses, rfl⟩
        | false =>
            exact .inl (.memory (hm.usesRegister_eq_false_iff.mp huses)
              ((hm.resolves_iff _).mpr ⟨huses, rfl⟩))
  · rintro (h | ⟨m, rfl, _, rfl⟩)
    · exact h.names hmemory
    · exact .memory m

namespace Instruction

def Fixes (i : Instruction) (a : UInt64) : Prop :=
  ∃ o ∈ i.operands, o.Fixes a

/-- The only operand that is a near branch target or memory is memory with general registers. -/
def OnlyGeneral (i : Instruction) : Prop :=
  ∃ m before after, i.operands = before ++ .memory m :: after ∧ m.usesGeneral = true ∧
    ∀ other ∈ before ++ after, ∀ b, ¬ other.Names b

theorem Leads.mem {i : Instruction} {o : Operand} (h : i.Leads o) : o ∈ i.operands := by
  rcases h with ⟨before, after, hoperands, _⟩
  rw [hoperands]
  exact List.mem_append_right before List.mem_cons_self

theorem OnlyGeneral.exists_leads {i : Instruction} (h : i.OnlyGeneral) :
    ∃ m, i.Leads (.memory m) ∧ m.usesGeneral = true ∧
      ∀ o ∈ i.operands, (∃ b, o.Names b) → o = .memory m := by
  rcases h with ⟨m, before, after, hoperands, hgeneral, hothers⟩
  refine ⟨m, ⟨before, after, hoperands, ?_⟩, hgeneral, ?_⟩
  · intro other hother
    exact hothers other (List.mem_append_left after hother)
  · rintro o ho ⟨b, hb⟩
    rw [hoperands] at ho
    rcases List.mem_append.mp ho with hbefore | hrest
    · exact absurd hb (hothers o (List.mem_append_left after hbefore) b)
    · rcases List.mem_cons.mp hrest with rfl | hafter
      · rfl
      · exact absurd hb (hothers o (List.mem_append_right before hafter) b)

end Instruction

namespace Variant

/-- Every recorded reference is one of an operand that stands for its address, and memory with
general registers is not recorded. -/
structure RecordsFixed (v : Variant) : Prop where
  fixed : ∀ rva i, i ∈ v.references.referrers rva →
    ∃ p a, v.instructions[i]? = some p ∧ a.toNat = v.image.base.toNat + rva.toNat ∧
      p.instruction.Fixes a
  general : ∀ i p, v.instructions[i]? = some p → p.instruction.OnlyGeneral →
    ∀ rva, i ∉ v.references.referrers rva

/-- An instruction that names an address in the image is recorded under it. -/
theorem mem_referrers_of_names {v : Variant} {i : Nat} {p : Placed}
    (hp : v.instructions[i]? = some p) {a : UInt64} (hnames : p.instruction.Names a)
    (hcontains : v.image.contains a = true) :
    i ∈ v.references.referrers (a - v.image.base) := by
  rw [mem_referrers]
  refine ⟨p, hp, ?_⟩
  unfold Placed.reference?
  rw [Instruction.address?_eq_some_iff.mpr hnames]
  exact if_pos hcontains

/-- All memory of the variant is addressed in one of the ways of the two instruction sets. -/
def FormsMemory (v : Variant) : Prop :=
  ∀ p ∈ v.instructions, ∀ m, .memory m ∈ p.instruction.operands → m.WellFormed

theorem formsMemory_of_decode {d : Disassembler} (hd : d.FormsMemory) {id : VariantId}
    {s : Section} {v : Variant} (h : Variant.decode d id s = .ok v) : v.FormsMemory := by
  intro p hp
  rcases Array.getElem?_of_mem hp with ⟨k, hk⟩
  rw [← Array.getElem?_toList] at hk
  exact hd ((decode_eq_ok h).decodes.decode?_eq hk)

section Formed

variable {v : Variant}

theorem FormsMemory.names_iff (h : v.FormsMemory) {p : Placed} (hp : p ∈ v.instructions)
    {o : Operand} (ho : o ∈ p.instruction.operands) (a : UInt64) :
    o.Names a ↔
      o.Fixes a ∨ ∃ m, o = .memory m ∧ m.usesRegister = true ∧ m.displacement = a := by
  apply Operand.names_iff
  rintro m rfl
  exact h p hp m ho

theorem FormsMemory.mem_referrers_iff_leads (h : v.FormsMemory) (rva : UInt64) (i : Nat) :
    i ∈ v.references.referrers rva ↔
      ∃ p o a, v.instructions[i]? = some p ∧ p.instruction.Leads o ∧
        (o.Fixes a ∨ ∃ m, o = .memory m ∧ m.usesRegister = true ∧ m.displacement = a) ∧
        a.toNat = v.image.base.toNat + rva.toNat ∧ v.image.contains a = true := by
  rw [v.groups_references.mem_referrers]
  constructor
  · rintro ⟨p, hp, hrefers⟩
    rcases Placed.refersTo_iff.mp hrefers with ⟨a, ⟨o, hleads, ho⟩, heq, hcontains⟩
    have hfixes := (h.names_iff (Array.mem_of_getElem? hp) hleads.mem a).mp ho
    exact ⟨p, o, a, hp, hleads, hfixes, heq, hcontains⟩
  · rintro ⟨p, o, a, hp, hleads, hfixes, heq, hcontains⟩
    have ho := (h.names_iff (Array.mem_of_getElem? hp) hleads.mem a).mpr hfixes
    exact ⟨p, hp, Placed.refersTo_iff.mpr ⟨a, ⟨o, hleads, ho⟩, heq, hcontains⟩⟩

theorem RecordsFixed.fixes (h : v.RecordsFixed) {p : Placed} (hp : p ∈ v.instructions)
    {o : Operand} (hleads : p.instruction.Leads o) {a : UInt64} (ho : o.Names a)
    (hcontains : v.image.contains a = true) : p.instruction.Fixes a := by
  rcases Array.getElem?_of_mem hp with ⟨i, hi⟩
  have hrecorded := mem_referrers_of_names hi ⟨o, hleads, ho⟩ hcontains
  rcases h.fixed _ i hrecorded with ⟨q, b, hq, heq, hfixes⟩
  rw [hi] at hq
  cases hq
  have hbase := (ImageRange.contains_iff.mp hcontains).1
  have hb : b = a := by
    rw [← UInt64.toNat_inj, heq, UInt64.toNat_sub_of_le _ _ (UInt64.le_iff_toNat_le.mpr hbase),
      Nat.add_sub_cancel' hbase]
  rw [← hb]
  exact hfixes

/-- Memory with general registers for the only operand with an address is recorded under its
displacement, which no operand stands for. -/
theorem FormsMemory.not_fixes_of_onlyGeneral (h : v.FormsMemory) {p : Placed}
    (hp : p ∈ v.instructions) (honly : p.instruction.OnlyGeneral) (a : UInt64) :
    ¬ p.instruction.Fixes a := by
  rintro ⟨o, ho, hfixes⟩
  rcases honly.exists_leads with ⟨m, hleads, hgeneral, honly⟩
  have hnames := (h.names_iff hp ho a).mpr (.inl hfixes)
  have huses := Memory.usesRegister_of_usesGeneral hgeneral
  cases honly o ho ⟨a, hnames⟩
  cases hfixes with
  | memory form resolves => exact (h p hp m ho).not_resolves huses a resolves

theorem FormsMemory.recordsFixed_of_fixes (h : v.FormsMemory)
    (hfixes : ∀ p ∈ v.instructions, ∀ m, p.instruction.Leads (.memory m) →
      m.usesRegister = true → v.image.contains m.displacement = true →
        p.instruction.Fixes m.displacement) : v.RecordsFixed := by
  have hrecorded : ∀ rva i, i ∈ v.references.referrers rva →
      ∃ p a, v.instructions[i]? = some p ∧ a.toNat = v.image.base.toNat + rva.toNat ∧
        p.instruction.Fixes a := by
    intro rva i hi
    rcases (h.mem_referrers_iff_leads rva i).mp hi with
      ⟨p, o, a, hp, hleads, ho | ⟨m, rfl, huses, rfl⟩, heq, hcontains⟩
    · exact ⟨p, a, hp, heq, o, hleads.mem, ho⟩
    · exact ⟨p, _, hp, heq, hfixes p (Array.mem_of_getElem? hp) m hleads huses hcontains⟩
  constructor
  · exact hrecorded
  · intro i p hp honly rva hi
    rcases hrecorded rva i hi with ⟨q, a, hq, _, hq'⟩
    rw [hp] at hq
    cases hq
    exact h.not_fixes_of_onlyGeneral (Array.mem_of_getElem? hp) honly a hq'

end Formed

/-- Instructions are recorded by the first operand that has an address. This is the address that
the operand stands for, or the displacement of memory with a register other than the instruction
pointer, which stands for no address at all. So exactly those variants record nothing but addresses
that operands stand for in which no such displacement lies in the image, unless another operand of
the same instruction stands for it. -/
theorem recordsFixed_iff {d : Disassembler} (hd : d.FormsMemory) {id : VariantId} {s : Section}
    {v : Variant} (h : Variant.decode d id s = .ok v) :
    (∀ rva i, i ∈ v.references.referrers rva ↔
      ∃ p o a, v.instructions[i]? = some p ∧ p.instruction.Leads o ∧
        (o.Fixes a ∨ ∃ m, o = .memory m ∧ m.usesRegister = true ∧ m.displacement = a) ∧
        a.toNat = v.image.base.toNat + rva.toNat ∧ v.image.contains a = true) ∧
    (∀ p ∈ v.instructions, ∀ m, .memory m ∈ p.instruction.operands →
      m.usesRegister = true → ∀ a, ¬ m.Resolves a) ∧
    (v.RecordsFixed ↔
      ∀ p ∈ v.instructions, ∀ m, p.instruction.Leads (.memory m) → m.usesRegister = true →
        v.image.contains m.displacement = true → p.instruction.Fixes m.displacement) := by
  have hforms := formsMemory_of_decode hd h
  refine ⟨hforms.mem_referrers_iff_leads, ?_, ?_⟩
  · intro p hp m hm huses a
    exact (hforms p hp m hm).not_resolves huses a
  · constructor
    · intro hfixed p hp m hleads _ hcontains
      exact hfixed.fixes hp hleads (.memory m) hcontains
    · exact hforms.recordsFixed_of_fixes

/-- A function that loads from a table, and from the record that it was given. -/
def tableReader : Section where
  image := ⟨0x180000000, 0x100000⟩
  address := 0x180001000
  bytes := [0x48, 0x8D, 0x05, 0xF9, 0x0F, 0, 0, 0x8B, 0x43, 0x10, 0xC3]

/-- Memory with a register whose displacement lies in the image. -/
def isMisread (image : ImageRange) : Operand → Bool
  | .memory m => m.usesRegister && image.contains m.displacement
  | _ => false

theorem decode_tableReader :
    ∃ v, Variant.decode .generalPurpose ⟨.game, 6156, .x64⟩ tableReader = .ok v ∧
      v.references.entries = [(0x2000, #[0])] ∧
      (v.instructions.all fun p => !p.instruction.operands.any (isMisread v.image)) = true :=
  ⟨_, rfl, by decide +kernel, by decide +kernel⟩

theorem recordsFixed_iff_tableReader :
    Disassembler.generalPurpose.FormsMemory ∧
      ∃ v, Variant.decode .generalPurpose ⟨.game, 6156, .x64⟩ tableReader = .ok v ∧
        v.references.entries = [(0x2000, #[0])] ∧ v.RecordsFixed := by
  have hd := Disassembler.generalPurpose_formsMemory
  rcases decode_tableReader with ⟨v, hdecode, hentries, hnone⟩
  refine ⟨hd, v, hdecode, hentries, ?_⟩
  rw [(recordsFixed_iff hd hdecode).2.2]
  intro p hp m hleads huses hcontains
  have hp := Array.all_eq_true_iff_forall_mem.mp hnone p hp
  rw [Bool.not_eq_true', List.any_eq_false] at hp
  refine absurd ?_ (hp _ hleads.mem)
  rw [isMisread, huses, hcontains]
  rfl

/-- A load from a table that is indexed by a register. -/
def tableLookup : Section where
  image := ⟨0x10000000, 0x100000⟩
  address := 0x10001000
  bytes := [0x8B, 0x83, 0, 0x20, 0, 0x10, 0xC3]

/-- The place of the table is recorded, and the only operand with an address is memory that begins
with a general register. -/
theorem referrers_unfixed :
    ∃ v, Variant.decode .generalPurpose ⟨.game, 6156, .x86⟩ tableLookup = .ok v ∧
      (v.instructions[0]?.map fun p => p.instruction.operands) =
        some [.register .eax,
          .memory ⟨.dword, some (.general .dword 3), none, 1, 0x10002000, .full⟩] ∧
      0 ∈ v.references.referrers 0x2000 ∧ ¬ v.RecordsFixed := by
  have hdecode : Variant.decode .generalPurpose ⟨.game, 6156, .x86⟩ tableLookup = .ok _ := rfl
  refine ⟨_, hdecode, by decide +kernel, by decide +kernel, ?_⟩
  intro hfixed
  refine hfixed.general 0 _ rfl ⟨_, [.register .eax], [], rfl, rfl, ?_⟩ 0x2000 (by decide +kernel)
  intro other hother b hnames
  rw [List.append_nil, List.mem_singleton] at hother
  rw [hother] at hnames
  cases hnames

end Variant
end JumpHooks
