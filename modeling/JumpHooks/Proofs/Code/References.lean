import JumpHooks.Instruction.GeneralPurpose
import JumpHooks.Proofs.Code.Calls
import Mathlib.Data.List.Nodup

/-!
# The grouping of references

The index is built in one pass over the instructions, and a counter goes along with it. What it
holds in the end is the grouping of all references by their address: nothing is lost or kept
twice, and both the addresses and the instructions under each of them stand in the order of the
code.
-/

namespace JumpHooks

/-!
# What an instruction refers to
-/

/-- The operand is a near branch target or memory, and `a` is the address it is written with. -/
inductive Operand.Names : Operand → UInt64 → Prop
  | target (w : Width) (a : UInt64) : Names (.target w a) a
  | memory (m : Memory) : Names (.memory m) m.displacement

theorem Operand.address?_eq_some_iff {o : Operand} {a : UInt64} :
    o.address? = some a ↔ o.Names a := by
  constructor
  · intro h
    cases o with
    | target w =>
        cases h
        exact .target w a
    | memory m =>
        cases h
        exact .memory m
    | _ => cases h
  · intro h
    cases h with
    | target w => rfl
    | memory m => rfl

namespace Instruction

/-- No operand in front of `o` is a near branch target or memory. -/
def Leads (i : Instruction) (o : Operand) : Prop :=
  ∃ before after, i.operands = before ++ o :: after ∧ ∀ other ∈ before, ∀ b, ¬ other.Names b

/-- The first operand that is a near branch target or memory is written with the address `a`. -/
def Names (i : Instruction) (a : UInt64) : Prop :=
  ∃ o, i.Leads o ∧ o.Names a

theorem address?_eq_some_iff {i : Instruction} {a : UInt64} :
    i.address? = some a ↔ i.Names a := by
  have hnone : ∀ o : Operand, o.address? = none ↔ ∀ b, ¬ o.Names b := by
    intro o
    rw [Option.eq_none_iff_forall_ne_some]
    exact forall_congr' fun b => not_congr Operand.address?_eq_some_iff
  unfold address?
  simp only [List.findSome?_eq_some_iff, Operand.address?_eq_some_iff, hnone]
  constructor
  · rintro ⟨before, o, after, hoperands, hnames, hbefore⟩
    exact ⟨o, ⟨before, after, hoperands, hbefore⟩, hnames⟩
  · rintro ⟨o, ⟨before, after, hoperands, hbefore⟩, hnames⟩
    exact ⟨before, o, after, hoperands, hnames, hbefore⟩

end Instruction

namespace Placed

/-- The instruction names an address in the image, `rva` bytes behind the image base. No address
lies in an image that wraps around. -/
def RefersTo (image : ImageRange) (p : Placed) (rva : UInt64) : Prop :=
  ∃ a, p.instruction.Names a ∧ a = image.base + rva ∧ image.base ≤ a ∧ a < image.stop

theorem reference?_eq_some_iff {image : ImageRange} {p : Placed} {rva : UInt64} :
    p.reference? image = some rva ↔ p.RefersTo image rva := by
  unfold reference? RefersTo
  constructor
  · intro h
    split at h
    · cases h
    · rename_i a ha
      split at h
      · rename_i hcontains
        cases h
        refine ⟨a, Instruction.address?_eq_some_iff.mp ha, ?_,
          ImageRange.contains_eq_true.mp hcontains⟩
        rw [UInt64.add_comm, UInt64.sub_add_cancel]
      · cases h
  · rintro ⟨a, hnames, heq, hcontains⟩
    rw [Instruction.address?_eq_some_iff.mpr hnames]
    dsimp only
    rw [if_pos (ImageRange.contains_eq_true.mpr hcontains), Option.some.injEq, heq,
      UInt64.add_comm, UInt64.add_sub_cancel]

instance (image : ImageRange) (p : Placed) (rva : UInt64) :
    Decidable (p.RefersTo image rva) :=
  decidable_of_iff _ reference?_eq_some_iff

/-- The instruction names an address in the image. -/
def IsReference (image : ImageRange) (p : Placed) : Prop :=
  ∃ rva, p.RefersTo image rva

theorem isSome_reference?_iff {image : ImageRange} {p : Placed} :
    (p.reference? image).isSome = true ↔ p.IsReference image := by
  rw [Option.isSome_iff_exists]
  exact exists_congr fun rva => reference?_eq_some_iff

instance (image : ImageRange) (p : Placed) : Decidable (p.IsReference image) :=
  decidable_of_iff _ isSome_reference?_iff

theorem refersTo_iff {image : ImageRange} {p : Placed} {rva : UInt64} :
    p.RefersTo image rva ↔ ∃ a, p.instruction.Names a ∧
      a.toNat = image.base.toNat + rva.toNat ∧ image.contains a = true := by
  refine exists_congr fun a => and_congr_right fun _ => ?_
  rw [← ImageRange.contains_eq_true]
  refine and_congr_left fun hcontains => ?_
  have hle := UInt64.le_iff_toNat_le.mp (ImageRange.contains_eq_true.mp hcontains).1
  rw [← UInt64.toNat_inj, UInt64.toNat_add]
  have ha := a.toNat_lt
  have hrva := rva.toNat_lt
  -- An address behind the base is reached from it without wrapping around.
  lia

theorem RefersTo.lt_size {image : ImageRange} {p : Placed} {rva : UInt64}
    (h : p.RefersTo image rva) : rva.toNat < image.size.toNat := by
  rcases refersTo_iff.mp h with ⟨a, _, heq, hcontains⟩
  have hend := (ImageRange.contains_iff.mp hcontains).2.1
  lia

end Placed

/-!
# One more reference
-/

namespace References

/-- What the index holds when these references were entered one after the other. -/
structure IsIndexOf (r : References) (entered : List (UInt64 × Nat)) : Prop where
  nodup : r.addresses.toList.Nodup
  mem_addresses : ∀ rva, rva ∈ r.addresses ↔ ∃ i, (rva, i) ∈ entered
  contains : ∀ rva, r.byAddress.contains rva = true ↔ rva ∈ r.addresses
  mem_referrers : ∀ rva i, i ∈ r.referrers rva ↔ (rva, i) ∈ entered
  ordered : r.addresses.toList.Pairwise fun a b =>
    ∃ i ∈ r.referrers a, ∀ j ∈ r.referrers b, i < j
  count : r.count = entered.length

theorem addresses_insert (r : References) (rva : UInt64) (i : Nat) :
    (r.insert rva i).addresses =
      if r.byAddress.contains rva then r.addresses else r.addresses.push rva :=
  rfl

theorem contains_insert (r : References) (rva a : UInt64) (i : Nat) :
    (r.insert rva i).byAddress.contains a = true ↔ a = rva ∨ r.byAddress.contains a = true := by
  show (r.byAddress.alter rva (extend i)).contains a = true ↔ _
  rw [Std.TreeMap.contains_alter]
  by_cases h : rva = a
  · subst h
    simp [extend]
  · have hne : ¬ a = rva := fun heq => h heq.symm
    rw [if_neg (mt Std.LawfulEqCmp.eq_of_compare h)]
    simp [hne]

theorem mem_referrers_insert (r : References) (rva a : UInt64) (i j : Nat) :
    j ∈ (r.insert rva i).referrers a ↔ j ∈ r.referrers a ∨ a = rva ∧ j = i := by
  rw [referrers_insert]
  by_cases h : rva = a
  · subst h
    simp
  · have hne : ¬ a = rva := fun heq => h heq.symm
    simp [h, hne]

theorem empty_isIndexOf : empty.IsIndexOf [] := by
  constructor
  · exact List.nodup_nil
  · simp [empty]
  · simp [empty]
  · simp [referrers_empty]
  · exact List.Pairwise.nil
  · rfl

namespace IsIndexOf

variable {r : References} {entered : List (UInt64 × Nat)}

theorem mem_addresses_insert (h : r.IsIndexOf entered) (rva a : UInt64) (i : Nat) :
    a ∈ (r.insert rva i).addresses ↔ a ∈ r.addresses ∨ a = rva := by
  rw [addresses_insert]
  split
  · rename_i hknown
    have hmem := (h.contains rva).mp hknown
    constructor
    · intro ha
      exact .inl ha
    · rintro (ha | rfl)
      · exact ha
      · exact hmem
  · exact Array.mem_push

/-- The addresses stay in the order of their first references when another instruction
follows. -/
theorem ordered_insert (h : r.IsIndexOf entered) {i : Nat} (hnew : ∀ e ∈ entered, e.2 < i)
    (rva : UInt64) :
    (r.insert rva i).addresses.toList.Pairwise fun a b =>
      ∃ k ∈ (r.insert rva i).referrers a, ∀ j ∈ (r.insert rva i).referrers b, k < j := by
  have hbefore : ∀ a k, k ∈ r.referrers a → k < i := fun a k hk =>
    hnew _ ((h.mem_referrers a k).mp hk)
  have hold : r.addresses.toList.Pairwise fun a b =>
      ∃ k ∈ (r.insert rva i).referrers a, ∀ j ∈ (r.insert rva i).referrers b, k < j := by
    refine h.ordered.imp ?_
    rintro a b ⟨k, hk, hfirst⟩
    refine ⟨k, (mem_referrers_insert r rva a i k).mpr (.inl hk), ?_⟩
    intro j hj
    rcases (mem_referrers_insert r rva b i j).mp hj with hj | ⟨_, rfl⟩
    · exact hfirst j hj
    · exact hbefore a k hk
  rw [addresses_insert]
  split
  · exact hold
  · rename_i hunknown
    rw [Array.toList_push, List.pairwise_append]
    refine ⟨hold, List.pairwise_singleton _ _, ?_⟩
    intro a ha b hb
    rw [List.mem_singleton.mp hb]
    -- The new address has no reference but the new one.
    rcases (h.mem_addresses a).mp (Array.mem_toList_iff.mp ha) with ⟨k, hk⟩
    have hk := (h.mem_referrers a k).mpr hk
    refine ⟨k, (mem_referrers_insert r rva a i k).mpr (.inl hk), ?_⟩
    intro j hj
    rcases (mem_referrers_insert r rva rva i j).mp hj with hj | ⟨_, rfl⟩
    · have hmem := (h.mem_addresses rva).mpr ⟨j, (h.mem_referrers rva j).mp hj⟩
      exact absurd ((h.contains rva).mpr hmem) hunknown
    · exact hbefore a k hk

theorem insert (h : r.IsIndexOf entered) {i : Nat} (hnew : ∀ e ∈ entered, e.2 < i)
    (rva : UInt64) : (r.insert rva i).IsIndexOf (entered ++ [(rva, i)]) := by
  constructor
  · rw [addresses_insert]
    split
    · exact h.nodup
    · rename_i hunknown
      have hfresh : rva ∉ r.addresses := mt (h.contains rva).mpr hunknown
      rw [Array.toList_push, ← List.concat_eq_append]
      exact h.nodup.concat (mt Array.mem_toList_iff.mp hfresh)
  · intro a
    rw [h.mem_addresses_insert, h.mem_addresses]
    simp only [List.mem_append, List.mem_singleton, Prod.mk.injEq, exists_or,
      exists_and_left, exists_eq, and_true]
  · intro a
    rw [contains_insert, h.contains, h.mem_addresses_insert, or_comm]
  · intro a j
    rw [mem_referrers_insert, h.mem_referrers]
    simp only [List.mem_append, List.mem_singleton, Prod.mk.injEq]
  · exact h.ordered_insert hnew rva
  · show r.count + 1 = _
    rw [h.count, List.length_append, List.length_singleton]

theorem foldl {entries : List (UInt64 × Nat)} (h : r.IsIndexOf entered)
    (hascending : (entered ++ entries).Pairwise fun e f => e.2 < f.2) :
    (entries.foldl (fun r (rva, i) => r.insert rva i) r).IsIndexOf (entered ++ entries) := by
  -- On the references that are left to enter, for every index that holds the ones before.
  induction entries generalizing r entered with
  | nil =>
      rw [List.append_nil]
      exact h
  | cons e entries ih =>
      have hsplit : entered ++ e :: entries = entered ++ [e] ++ entries := by simp
      have hnew : ∀ other ∈ entered, other.2 < e.2 := fun other hother =>
        (List.pairwise_append.mp hascending).2.2 other hother e List.mem_cons_self
      rw [hsplit] at hascending ⊢
      exact ih (h.insert hnew e.1) hascending

end IsIndexOf

/-!
# All references
-/

/-- The references are found in the order of the instructions. -/
theorem pairs_ascending (image : ImageRange) (instructions : Array Placed) :
    (pairs image instructions).Pairwise fun e f => e.2 < f.2 := by
  have hplaces : instructions.toList.zipIdx.Pairwise fun x y => x.2 < y.2 := by
    rw [← List.pairwise_map (f := Prod.snd), List.zipIdx_map_snd]
    exact List.pairwise_lt_range'
  refine hplaces.filterMap _ ?_
  intro x y hlt e he f hf
  rcases Option.map_eq_some_iff.mp he with ⟨_, _, rfl⟩
  rcases Option.map_eq_some_iff.mp hf with ⟨_, _, rfl⟩
  exact hlt

theorem mem_pairs_iff (image : ImageRange) (instructions : Array Placed) (rva : UInt64) (i : Nat) :
    (rva, i) ∈ pairs image instructions ↔
      ∃ p, instructions[i]? = some p ∧ p.RefersTo image rva := by
  rw [mem_pairs]
  simp only [Placed.reference?_eq_some_iff]

theorem isIndexOf_ofInstructions (image : ImageRange) (instructions : Array Placed) :
    (ofInstructions image instructions).IsIndexOf (pairs image instructions) :=
  empty_isIndexOf.foldl (pairs_ascending image instructions)

theorem mem_addresses_ofInstructions (image : ImageRange) (instructions : Array Placed)
    (rva : UInt64) :
    rva ∈ (ofInstructions image instructions).addresses ↔
      ∃ p ∈ instructions, p.RefersTo image rva := by
  rw [(isIndexOf_ofInstructions image instructions).mem_addresses]
  simp only [mem_pairs_iff, Array.mem_iff_getElem?]
  constructor
  · rintro ⟨i, p, hp, hrefers⟩
    exact ⟨p, ⟨i, hp⟩, hrefers⟩
  · rintro ⟨p, ⟨i, hp⟩, hrefers⟩
    exact ⟨i, p, hp, hrefers⟩

theorem referrers_ascending (image : ImageRange) (instructions : Array Placed) (rva : UInt64) :
    ((ofInstructions image instructions).referrers rva).toList.Pairwise (· < ·) := by
  rw [ofInstructions, referrers_foldl, referrers_empty, Array.toList_empty, List.nil_append,
    List.pairwise_map]
  exact (pairs_ascending image instructions).filter _

theorem length_pairs (image : ImageRange) (instructions : Array Placed) :
    (pairs image instructions).length =
      instructions.toList.countP fun p => decide (p.IsReference image) := by
  have hsome : ∀ x : Placed × Nat,
      ((x.1.reference? image).map fun rva => (rva, x.2)).isSome =
        decide (x.1.IsReference image) := by
    intro x
    rw [Option.isSome_map, Bool.eq_iff_iff, decide_eq_true_eq, Placed.isSome_reference?_iff]
  unfold pairs
  rw [List.length_filterMap_eq_countP, List.countP_congr fun x _ => by rw [hsome x]]
  conv_rhs => rw [← List.zipIdx_map_fst 0 instructions.toList, List.countP_map]
  rfl

/-!
# The entries of the index
-/

/-- The references that the index holds, address by address. -/
def recorded (r : References) : List (UInt64 × Nat) :=
  r.entries.flatMap fun e => e.2.toList.map fun i => (e.1, i)

theorem length_recorded (r : References) :
    r.recorded.length = (r.entries.map fun e => e.2.size).sum := by
  unfold recorded
  simp only [List.length_flatMap, List.length_map, Array.length_toList]

theorem mem_entries {r : References} {e : UInt64 × Array Nat} :
    e ∈ r.entries ↔ e.1 ∈ r.addresses ∧ e.2 = r.referrers e.1 := by
  unfold entries
  rw [List.mem_map]
  constructor
  · rintro ⟨rva, hrva, rfl⟩
    exact ⟨Array.mem_toList_iff.mp hrva, rfl⟩
  · rintro ⟨hrva, hrefs⟩
    exact ⟨e.1, Array.mem_toList_iff.mpr hrva, by rw [← hrefs]⟩

theorem exists_first_of_mem {r : References} {rva : UInt64} {i : Nat}
    (hascending : (r.referrers rva).toList.Pairwise (· < ·)) (hi : i ∈ r.referrers rva) :
    ∃ j, (r.referrers rva)[0]? = some j ∧ j ∈ r.referrers rva ∧ j ≤ i := by
  rw [← Array.mem_toList_iff] at hi
  cases hrefs : (r.referrers rva).toList with
  | nil =>
      rw [hrefs] at hi
      exact absurd hi List.not_mem_nil
  | cons j rest =>
      rw [hrefs] at hi hascending
      refine ⟨j, ?_, ?_, ?_⟩
      · rw [← Array.getElem?_toList, hrefs]
        rfl
      · rw [← Array.mem_toList_iff, hrefs]
        exact List.mem_cons_self
      · rcases List.mem_cons.mp hi with rfl | hmem
        · exact Nat.le_refl i
        · exact Nat.le_of_lt ((List.pairwise_cons.mp hascending).1 i hmem)

theorem map_fst_entries (r : References) : r.entries.map Prod.fst = r.addresses.toList := by
  unfold entries
  rw [List.map_map]
  exact List.map_id _

namespace IsIndexOf

variable {r : References} {entered : List (UInt64 × Nat)}

theorem mem_recorded (h : r.IsIndexOf entered) (e : UInt64 × Nat) :
    e ∈ r.recorded ↔ e ∈ entered := by
  unfold recorded
  rw [List.mem_flatMap]
  constructor
  · rintro ⟨x, hx, he⟩
    rcases List.mem_map.mp he with ⟨i, hi, rfl⟩
    rw [(mem_entries.mp hx).2] at hi
    exact (h.mem_referrers _ i).mp (Array.mem_toList_iff.mp hi)
  · intro he
    refine ⟨(e.1, r.referrers e.1), ?_, ?_⟩
    · exact mem_entries.mpr ⟨(h.mem_addresses e.1).mpr ⟨e.2, he⟩, rfl⟩
    · refine List.mem_map.mpr ⟨e.2, ?_, rfl⟩
      exact Array.mem_toList_iff.mpr ((h.mem_referrers e.1 e.2).mpr he)

theorem nodup_recorded (h : r.IsIndexOf entered)
    (hascending : ∀ rva, (r.referrers rva).toList.Pairwise (· < ·)) : r.recorded.Nodup := by
  unfold recorded entries
  rw [List.flatMap_map, List.nodup_flatMap]
  constructor
  · intro rva _
    have hnodup : (r.referrers rva).toList.Nodup := (hascending rva).imp Nat.ne_of_lt
    exact hnodup.map fun i j heq => (Prod.mk.inj heq).2
  · refine h.nodup.imp ?_
    intro a b hne x hxa hxb
    rcases List.mem_map.mp hxa with ⟨i, _, rfl⟩
    rcases List.mem_map.mp hxb with ⟨j, _, heq⟩
    exact hne (Prod.mk.inj heq).1.symm

theorem nonempty_entries (h : r.IsIndexOf entered) : ∀ e ∈ r.entries, e.2 ≠ #[] := by
  intro e he
  rcases mem_entries.mp he with ⟨hmem, hrefs⟩
  rcases (h.mem_addresses e.1).mp hmem with ⟨i, hi⟩
  rw [hrefs]
  exact Array.ne_empty_of_mem ((h.mem_referrers e.1 i).mpr hi)

/-- The first reference of an address stands in front of those of the addresses behind it. -/
theorem ordered_entries (h : r.IsIndexOf entered)
    (hascending : ∀ rva, (r.referrers rva).toList.Pairwise (· < ·)) :
    r.entries.Pairwise fun e f => ∃ i j, e.2[0]? = some i ∧ f.2[0]? = some j ∧ i < j := by
  unfold entries
  rw [List.pairwise_map]
  refine h.ordered.imp_of_mem ?_
  rintro a b _ hb ⟨i, hi, hbefore⟩
  rcases (h.mem_addresses b).mp (Array.mem_toList_iff.mp hb) with ⟨j, hj⟩
  rcases exists_first_of_mem (hascending a) hi with ⟨i', hi', _, hle⟩
  rcases exists_first_of_mem (hascending b) ((h.mem_referrers b j).mpr hj) with
    ⟨j', hj', hmem, _⟩
  exact ⟨i', j', hi', hj', hle.trans_lt (hbefore j' hmem)⟩

end IsIndexOf

theorem recorded_perm (image : ImageRange) (instructions : Array Placed) :
    (ofInstructions image instructions).recorded.Perm (pairs image instructions) := by
  have hindex := isIndexOf_ofInstructions image instructions
  have hpairs : (pairs image instructions).Nodup :=
    (pairs_ascending image instructions).imp fun hlt heq =>
      Nat.ne_of_lt hlt (congrArg Prod.snd heq)
  rw [List.perm_ext_iff_of_nodup
    (hindex.nodup_recorded (referrers_ascending image instructions)) hpairs]
  exact hindex.mem_recorded

/-- The index is the grouping of the references in these instructions: each address that is
referred to once, in the order of the first references, and under it all instructions that refer
to it, in their order. -/
structure Groups (r : References) (image : ImageRange) (instructions : Array Placed) :
    Prop where
  mem_referrers : ∀ rva i, i ∈ r.referrers rva ↔
    ∃ p, instructions[i]? = some p ∧ p.RefersTo image rva
  ascending : ∀ rva, (r.referrers rva).toList.Pairwise (· < ·)
  mem_entries : ∀ rva indices, (rva, indices) ∈ r.entries ↔
    indices = r.referrers rva ∧ ∃ p ∈ instructions, p.RefersTo image rva
  nonempty : ∀ e ∈ r.entries, e.2 ≠ #[]
  once : (r.entries.map Prod.fst).Nodup
  ordered : r.entries.Pairwise fun e f =>
    ∃ i j, e.2[0]? = some i ∧ f.2[0]? = some j ∧ i < j
  size_eq : r.size = r.entries.length
  below : ∀ e ∈ r.entries, e.1.toNat < image.size.toNat
  count_eq_sum : r.count = (r.entries.map fun e => e.2.size).sum
  count_eq : r.count = instructions.toList.countP fun p => decide (p.IsReference image)

theorem groups_ofInstructions (image : ImageRange) (instructions : Array Placed) :
    (ofInstructions image instructions).Groups image instructions := by
  have hindex := isIndexOf_ofInstructions image instructions
  have hascending := referrers_ascending image instructions
  constructor
  · intro rva i
    rw [hindex.mem_referrers, mem_pairs_iff]
  · exact hascending
  · intro rva indices
    rw [mem_entries, mem_addresses_ofInstructions, and_comm]
  · exact hindex.nonempty_entries
  · rw [map_fst_entries]
    exact hindex.nodup
  · exact hindex.ordered_entries hascending
  · unfold entries size
    rw [List.length_map, Array.length_toList]
  · intro e he
    rcases (mem_addresses_ofInstructions image instructions e.1).mp (mem_entries.mp he).1 with
      ⟨p, _, hrefers⟩
    exact hrefers.lt_size
  · rw [hindex.count, ← length_recorded, (recorded_perm image instructions).length_eq]
  · rw [hindex.count, length_pairs]

end References

/-!
# The listing
-/

namespace Variant

/-- The line shows instruction `i` with an address of the image that it names. -/
def Reports (d : Disassembler) (v : Variant) (i : Nat) (line : String) : Prop :=
  ∃ p rva, v.instructions[i]? = some p ∧ p.RefersTo v.image rva ∧
    line = s!"{p.text d v.id.bitness} -> 0x{Text.hex rva.toNat}"

/-- The line of a reference. -/
def recordLine? (d : Disassembler) (v : Variant) (e : UInt64 × Nat) : Option String :=
  (v.line? d e.2).map fun line => s!"{line} -> 0x{Text.hex e.1.toNat}"

theorem referenceLines_eq (d : Disassembler) (v : Variant) :
    v.referenceLines d = v.references.recorded.filterMap (v.recordLine? d) := by
  unfold referenceLines References.recorded
  rw [List.filterMap_flatMap]
  simp only [List.filterMap_map]
  rfl

theorem mem_recorded {v : Variant} {e : UInt64 × Nat} :
    e ∈ v.references.recorded ↔
      ∃ p, v.instructions[e.2]? = some p ∧ p.RefersTo v.image e.1 := by
  rw [v.references_eq, (References.recorded_perm v.image v.instructions).mem_iff,
    References.mem_pairs_iff]

theorem exists_recordLine (d : Disassembler) {v : Variant} {e : UInt64 × Nat}
    (he : e ∈ v.references.recorded) :
    ∃ line, v.recordLine? d e = some line ∧ v.Reports d e.2 line := by
  rcases mem_recorded.mp he with ⟨p, hp, hrefers⟩
  refine ⟨_, ?_, p, e.1, hp, hrefers, rfl⟩
  unfold recordLine? line?
  rw [hp]
  rfl

theorem forall₂_filterMap {α β γ : Type} {R : β → γ → Prop} {f : α → Option γ} {g : α → β}
    {l : List α} (h : ∀ a ∈ l, ∃ c, f a = some c ∧ R (g a) c) :
    List.Forall₂ R (l.map g) (l.filterMap f) := by
  induction l with
  | nil => exact .nil
  | cons a l ih =>
      rcases h a List.mem_cons_self with ⟨c, hc, hr⟩
      rw [List.filterMap_cons_some hc]
      exact .cons hr (ih fun b hb => h b (List.mem_cons_of_mem a hb))

/-- Every reference has its line, address by address. -/
theorem forall₂_referenceLines (d : Disassembler) (v : Variant) :
    List.Forall₂ (v.Reports d) (v.references.recorded.map Prod.snd) (v.referenceLines d) := by
  rw [referenceLines_eq]
  exact forall₂_filterMap fun e he => exists_recordLine d he

/-- No instruction is listed twice. -/
theorem nodup_listed (v : Variant) : (v.references.recorded.map Prod.snd).Nodup := by
  have hperm := (References.recorded_perm v.image v.instructions).map Prod.snd
  rw [v.references_eq, hperm.nodup_iff]
  exact List.pairwise_map.mpr
    ((References.pairs_ascending v.image v.instructions).imp Nat.ne_of_lt)

theorem mem_listed {v : Variant} {i : Nat} :
    i ∈ v.references.recorded.map Prod.snd ↔
      ∃ p, v.instructions[i]? = some p ∧ p.IsReference v.image := by
  rw [List.mem_map]
  constructor
  · rintro ⟨e, he, rfl⟩
    rcases mem_recorded.mp he with ⟨p, hp, hrefers⟩
    exact ⟨p, hp, e.1, hrefers⟩
  · rintro ⟨p, hp, rva, hrefers⟩
    exact ⟨(rva, i), mem_recorded.mpr ⟨p, hp, hrefers⟩, rfl⟩

theorem groups_references (v : Variant) : v.references.Groups v.image v.instructions := by
  rw [v.references_eq]
  exact References.groups_ofInstructions v.image v.instructions

theorem length_referenceLines (d : Disassembler) (v : Variant) :
    (v.referenceLines d).length = v.references.count := by
  rw [← (v.forall₂_referenceLines d).length_eq, List.length_map, References.length_recorded,
    v.groups_references.count_eq_sum]

/-- The index of any instructions is the grouping of their references. That of a variant is listed
with one line for each instruction that is a reference, and looking an instruction up in it finds
the direct calls that a search through all instructions finds. -/
theorem references_exact :
    (∀ image instructions,
      (References.ofInstructions image instructions).Groups image instructions) ∧
    ∀ v : Variant,
      v.references.Groups v.image v.instructions ∧
      (∀ d, (v.referenceLines d).length = v.references.count ∧
        ∃ indices : List Nat, indices.Nodup ∧
          (∀ i, i ∈ indices ↔ ∃ p, v.instructions[i]? = some p ∧ p.IsReference v.image) ∧
          List.Forall₂ (v.Reports d) indices (v.referenceLines d)) ∧
      ∀ k, v.isEntered k = true ↔ v.Entered k := by
  refine ⟨References.groups_ofInstructions, ?_⟩
  intro v
  refine ⟨v.groups_references, ?_, fun k => v.isEntered_iff_entered⟩
  intro d
  exact ⟨v.length_referenceLines d, _, v.nodup_listed, fun i => mem_listed,
    v.forall₂_referenceLines d⟩

/-- Two calls of one function with a table between them, which stands behind the function. -/
def sharedCallee : Section where
  image := ⟨0x180000000, 0x100000⟩
  address := 0x180001000
  bytes := [0xE8, 0x0D, 0, 0, 0, 0x48, 0x8D, 0x05, 0x08, 0, 0, 0, 0xE8, 0x01, 0, 0, 0, 0xC3,
    0xC3]

set_option maxRecDepth 10000 in
theorem references_exact_shared_callee :
    ∃ v, decode .generalPurpose ⟨.game, 6156, .x64⟩ sharedCallee = .ok v ∧
      v.references.entries = [(0x1012, #[0, 2]), (0x1014, #[1])] ∧
      v.references.count = 3 ∧ (v.referenceLines .generalPurpose).length = 3 ∧
      v.Entered 4 := by
  have hdecode : decode .generalPurpose ⟨.game, 6156, .x64⟩ sharedCallee = .ok _ := rfl
  refine ⟨_, hdecode, by decide +kernel, by decide +kernel, ?_, ?_⟩
  · rw [((references_exact.2 _).2.1 _).1]
    decide +kernel
  · exact ((references_exact.2 _).2.2 4).mp (by decide +kernel)

end Variant
end JumpHooks
