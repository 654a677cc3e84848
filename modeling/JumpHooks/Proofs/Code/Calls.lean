import JumpHooks.Code.Subroutine
import JumpHooks.Proofs.Code.Boundaries

/-!
# Direct calls

The references of a variant are kept by the address that they name. Looking up the address of
an instruction finds the same direct calls as going through all instructions.
-/

namespace JumpHooks

/-!
# The index of references
-/

namespace References

theorem referrers_empty (rva : UInt64) : empty.referrers rva = #[] := rfl

theorem referrers_insert (r : References) (rva rva' : UInt64) (i : Nat) :
    (r.insert rva i).referrers rva' =
      if rva = rva' then (r.referrers rva).push i else r.referrers rva' := by
  obtain ⟨addresses, byAddress, count⟩ := r
  show (byAddress.alter rva (extend i)).getD rva' #[] = _
  rw [Std.TreeMap.getD_alter]
  by_cases h : rva = rva'
  · subst h
    rw [if_pos Std.compare_self, if_pos rfl]
    show (byAddress[rva]?.getD #[]).push i = (byAddress.getD rva #[]).push i
    rw [Std.TreeMap.getD_eq_getD_getElem?]
  · rw [if_neg (mt Std.LawfulEqCmp.eq_of_compare h), if_neg h]
    rfl

/-- The index holds the references in the order in which they are entered. -/
theorem referrers_foldl (r : References) (entries : List (UInt64 × Nat)) (rva : UInt64) :
    ((entries.foldl (fun r (rva, i) => r.insert rva i) r).referrers rva).toList =
      (r.referrers rva).toList ++
        (entries.filter fun e => e.1 = rva).map Prod.snd := by
  induction entries generalizing r with
  | nil => simp
  | cons e entries ih =>
      rw [List.foldl_cons, ih, referrers_insert]
      by_cases h : e.1 = rva
      · simp [h]
      · simp [h]

theorem mem_pairs {image : ImageRange} {instructions : Array Placed} {rva : UInt64} {i : Nat} :
    (rva, i) ∈ pairs image instructions ↔
      ∃ p, instructions[i]? = some p ∧ p.reference? image = some rva := by
  unfold pairs
  constructor
  · intro h
    rcases List.mem_filterMap.mp h with ⟨⟨p, j⟩, hmem, hmap⟩
    rcases Option.map_eq_some_iff.mp hmap with ⟨rva', hreference, hpair⟩
    cases hpair
    rw [List.mk_mem_zipIdx_iff_getElem?, Array.getElem?_toList] at hmem
    exact ⟨p, hmem, hreference⟩
  · intro h
    rcases h with ⟨p, hp, hreference⟩
    refine List.mem_filterMap.mpr ⟨(p, i), ?_, by simp [hreference]⟩
    rw [List.mk_mem_zipIdx_iff_getElem?, Array.getElem?_toList]
    exact hp

theorem mem_referrers {image : ImageRange} {instructions : Array Placed} {rva : UInt64}
    {i : Nat} :
    i ∈ (ofInstructions image instructions).referrers rva ↔
      ∃ p, instructions[i]? = some p ∧ p.reference? image = some rva := by
  rw [← Array.mem_toList_iff, ofInstructions, referrers_foldl, referrers_empty, ← mem_pairs]
  simp

end References

/-!
# Entered instructions
-/

/-- The only operand of a direct call is its target. -/
theorem Placed.WellFormed.call_target {p : Placed} (h : p.WellFormed)
    (hcall : p.isDirectCall = true) : ∃ w a, p.instruction.operands = [.target w a] := by
  rcases Form.kinds_of_isDirectCall hcall with hkinds | hkinds
  · exact ⟨_, h.target hkinds⟩
  · exact ⟨_, h.target hkinds⟩

namespace Variant

/-- Some direct call of the variant goes to instruction `k`. -/
def Entered (v : Variant) (k : Nat) : Prop :=
  ∃ p ∈ v.instructions, p.isDirectCall = true ∧
    ∃ q, v.instructions[k]? = some q ∧ p.instruction.target? = some q.address

theorem mem_referrers {v : Variant} {rva : UInt64} {i : Nat} :
    i ∈ v.references.referrers rva ↔
      ∃ p, v.instructions[i]? = some p ∧ p.reference? v.image = some rva := by
  rw [v.references_eq]
  exact References.mem_referrers

theorem isEntered_iff {v : Variant} {k : Nat} :
    v.isEntered k = true ↔
      ∃ q, v.instructions[k]? = some q ∧ ∃ p ∈ v.instructions, p.isDirectCall = true ∧
        p.reference? v.image = some (q.address - v.image.base) := by
  unfold isEntered rva?
  cases hq : v.instructions[k]? with
  | none => simp
  | some q =>
      simp only [Option.map_some, Array.any_eq_true', Option.any_eq_true, mem_referrers]
      constructor
      · intro h
        rcases h with ⟨i, ⟨p, hp, hreference⟩, p', hp', hcall⟩
        rw [hp] at hp'
        cases hp'
        exact ⟨q, rfl, p, Array.mem_of_getElem? hp, hcall, hreference⟩
      · intro h
        rcases h with ⟨q', hq', p, hp, hcall, hreference⟩
        cases hq'
        rcases Array.getElem?_of_mem hp with ⟨i, hi⟩
        exact ⟨i, ⟨p, hi, hreference⟩, p, hi, hcall⟩

/-- A direct call refers to its target and to nothing else. -/
theorem reference_eq_some (v : Variant) {p q : Placed} {k : Nat}
    (hp : p ∈ v.instructions) (hcall : p.isDirectCall = true)
    (hq : v.instructions[k]? = some q) :
    p.reference? v.image = some (q.address - v.image.base) ↔
      p.instruction.target? = some q.address := by
  rcases (v.wellFormed hp).call_target hcall with ⟨w, a, hoperands⟩
  have haddress : p.instruction.address? = some a := by
    simp [Instruction.address?, hoperands, Operand.address?]
  have htarget : p.instruction.target? = some a := by
    simp [Instruction.target?, hoperands, Operand.target?]
  rw [htarget, Placed.reference?, haddress]
  constructor
  · intro h
    dsimp only at h
    split at h
    · rw [Option.some.injEq, UInt64.sub_left_inj] at h
      rw [h]
    · cases h
  · intro h
    cases h
    simp [v.contains_address hq]

/-- Whether an instruction is entered does not depend on how the references are kept. -/
theorem isEntered_iff_entered (v : Variant) {k : Nat} :
    v.isEntered k = true ↔ v.Entered k := by
  rw [isEntered_iff]
  constructor
  · intro h
    rcases h with ⟨q, hq, p, hp, hcall, hreference⟩
    exact ⟨p, hp, hcall, q, hq, (v.reference_eq_some hp hcall hq).mp hreference⟩
  · intro h
    rcases h with ⟨p, hp, hcall, q, hq, htarget⟩
    exact ⟨q, hq, p, hp, hcall, (v.reference_eq_some hp hcall hq).mpr htarget⟩

end Variant
end JumpHooks
