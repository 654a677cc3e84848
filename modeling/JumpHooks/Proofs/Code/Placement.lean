import JumpHooks.Proofs.Instruction.Placement
import JumpHooks.Proofs.Code.Outcomes
import JumpHooks.Proofs.Code.Segmentation
import JumpHooks.Proofs.Outcome
import Mathlib.Data.UInt

/-!
# Code at two places

The same bytes in an image that is loaded elsewhere are decoded to the same instructions, each of
them as far behind its counterpart as the image is. Calls go to the same instructions, and so
the code is cut into the same subroutines.
-/

namespace JumpHooks

/-- The section in an image that is loaded `shift` further on. -/
def Section.moved (s : Section) (shift : UInt64) : Section where
  image := ⟨s.image.base + shift, s.image.size⟩
  address := s.address + shift
  bytes := s.bytes

/-!
# Decoding
-/

theorem Decodes.moved {d : Disassembler} (hd : d.Relocates) {b : Bitness} {address : UInt64}
    {bytes rest : List UInt8} {ps : List Placed} (h : Decodes d b address bytes ps rest)
    (shift : UInt64) :
    ∃ qs, Decodes d b (address + shift) bytes qs rest ∧
      List.Forall₂ (Placed.Moved b shift) ps qs := by
  induction h with
  | nil => exact ⟨[], .nil _ _, .nil⟩
  | @cons address bytes _ p ps hp _ ih =>
      rcases hd.decode?_moved hp shift with ⟨q, hq, hmoved⟩
      rcases ih with ⟨qs, hqs, hrest⟩
      have hnext : address + UInt64.ofNat p.length + shift =
          address + shift + UInt64.ofNat q.length := by
        rw [hmoved.length]
        ac_rfl
      rw [hnext, ← hmoved.length] at hqs
      exact ⟨q :: qs, .cons hq hqs, .cons hmoved hrest⟩

namespace Variant

/-- The second variant consists of the instructions of the first one, in an image that is loaded
`shift` further on. -/
structure Moved (shift : UInt64) (v w : Variant) : Prop where
  id : w.id = v.id
  base : w.image.base = v.image.base + shift
  instructions : List.Forall₂ (Placed.Moved v.id.bitness shift) v.instructions.toList
    w.instructions.toList
  reaches : ∀ p ∈ v.instructions, v.id.bitness.Reaches p.address
  reaches_moved : ∀ q ∈ w.instructions, v.id.bitness.Reaches q.address

namespace Moved

variable {shift : UInt64} {v w : Variant}

theorem symm (h : Moved shift v w) : Moved (-shift) w v := by
  constructor
  · exact h.id.symm
  · rw [h.base, ← UInt64.sub_eq_add_neg, UInt64.add_sub_cancel]
  · rw [h.id]
    exact (h.instructions.imp fun _ _ => Placed.Moved.symm).flip
  · rw [h.id]
    exact h.reaches_moved
  · rw [h.id]
    exact h.reaches

theorem size_eq (h : Moved shift v w) : w.size = v.size :=
  h.instructions.length_eq.symm

theorem exists_moved (h : Moved shift v w) {k : Nat} {p : Placed}
    (hp : v.instructions[k]? = some p) :
    ∃ q, w.instructions[k]? = some q ∧ p.Moved v.id.bitness shift q := by
  rw [← Array.getElem?_toList] at hp ⊢
  exact Outcome.forall₂_getElem? h.instructions hp

theorem instruction_none (h : Moved shift v w) {k : Nat} (hp : v.instructions[k]? = none) :
    w.instructions[k]? = none := by
  rw [Array.getElem?_eq_none_iff] at hp ⊢
  exact h.size_eq.trans_le hp

theorem rva?_eq (h : Moved shift v w) (k : Nat) : w.rva? k = v.rva? k := by
  unfold rva?
  cases hp : v.instructions[k]? with
  | none => rw [h.instruction_none hp]; rfl
  | some p =>
      rcases h.exists_moved hp with ⟨q, hq, hmoved⟩
      rw [hq, Option.map_some, Option.map_some, hmoved.address, h.base]
      exact congrArg some (add_sub_add_right_eq_sub p.address v.image.base shift)

theorem isPadding_eq (h : Moved shift v w) (k : Nat) : w.isPadding k = v.isPadding k := by
  unfold isPadding
  cases hp : v.instructions[k]? with
  | none => rw [h.instruction_none hp]
  | some p =>
      rcases h.exists_moved hp with ⟨q, hq, hmoved⟩
      rw [hq, Option.any_some, Option.any_some, hmoved.isPadding_eq]

/-- A direct call still goes where it went. -/
theorem entered (h : Moved shift v w) {k : Nat} (hk : v.Entered k) : w.Entered k := by
  rcases hk with ⟨p, hp, hcall, t, ht, htarget⟩
  rcases Array.getElem?_of_mem hp with ⟨i, hi⟩
  rcases h.exists_moved hi with ⟨q, hq, hmoved⟩
  rcases h.exists_moved ht with ⟨u, hu, htmoved⟩
  refine ⟨q, Array.mem_of_getElem? hq, hmoved.isDirectCall_eq.trans hcall, u, hu, ?_⟩
  have hreach := h.reaches t (Array.mem_of_getElem? ht)
  have hreach' := h.reaches_moved u (Array.mem_of_getElem? hu)
  rw [htmoved.address] at hreach' ⊢
  exact (hmoved.call_target_iff hcall hreach hreach').mp htarget

theorem isEntered_eq (h : Moved shift v w) (k : Nat) : w.isEntered k = v.isEntered k := by
  rw [Bool.eq_iff_iff, v.isEntered_iff_entered, w.isEntered_iff_entered]
  exact ⟨h.symm.entered, h.entered⟩

/-!
# Subroutines
-/

theorem startOf_eq (h : Moved shift v w) (k : Nat) : w.startOf k = v.startOf k := by
  induction k with
  | zero => rfl
  | succ k ih => rw [startOf, startOf, h.isEntered_eq, h.isPadding_eq, ih]

theorem stopFrom_eq (h : Moved shift v w) (remaining k : Nat) :
    w.stopFrom remaining k = v.stopFrom remaining k := by
  induction remaining generalizing k with
  | zero => rfl
  | succ remaining ih => rw [stopFrom, stopFrom, h.isEntered_eq, h.isPadding_eq, ih]

theorem subroutineAt_eq (h : Moved shift v w) (i : Nat) : w.subroutineAt i = v.subroutineAt i := by
  unfold subroutineAt
  rw [h.startOf_eq, h.stopFrom_eq, h.size_eq]

theorem subroutine_eq (h : Moved shift v w) (i : Nat) : w.subroutine i = v.subroutine i := by
  unfold subroutine
  rw [h.size_eq, h.subroutineAt_eq]

theorem isSegment (h : Moved shift v w) {i : Nat} (hi : i < v.size) {s : Subroutine}
    (hs : v.IsSegment i s) : w.IsSegment i s := by
  have hsame := hs.unique (v.subroutineAt_isSegment hi)
  rw [hsame, ← h.subroutineAt_eq i]
  exact w.subroutineAt_isSegment (h.size_eq ▸ hi)

theorem rvaOf_eq (h : Moved shift v w) (s : Subroutine) : w.rvaOf s = v.rvaOf s := by
  unfold rvaOf
  rw [h.rva?_eq]

theorem body_moved (h : Moved shift v w) (s : Subroutine) :
    List.Forall₂ (Placed.Moved v.id.bitness shift) (v.body s) (w.body s) := by
  rw [body_eq, body_eq]
  exact List.forall₂_take _ (List.forall₂_drop _ h.instructions)

theorem lengths_eq (h : Moved shift v w) :
    w.instructions.map Placed.length = v.instructions.map Placed.length := by
  apply Array.toList_inj.mp
  rw [Array.toList_map, Array.toList_map, ← List.forall₂_eq_eq_eq, List.forall₂_map_left_iff,
    List.forall₂_map_right_iff]
  exact h.symm.instructions.imp fun _ _ hmoved => hmoved.length.symm

end Moved

/-!
# Decoding at both places
-/

section Decoded

variable {d : Disassembler} {id : VariantId} {s : Section} {shift : UInt64}

/-- An address in an image that 32-bit code can reach is one that a branch can go to. -/
theorem reaches_of_decode {v : Variant} (h : decode d id s = .ok v)
    (hlow : id.bitness = .x86 → s.image.stop.toNat ≤ 2 ^ 32) :
    ∀ p ∈ v.instructions, id.bitness.Reaches p.address := by
  intro p hp
  rcases Array.getElem?_of_mem hp with ⟨k, hk⟩
  have himage : v.image = s.image := (decode_eq_ok h).image
  have hlt := (ImageRange.contains_eq_true.mp (v.contains_address hk)).2
  cases hbitness : id.bitness with
  | x64 => exact Bitness.reaches_x64 _
  | x86 =>
      have hstop := hlow hbitness
      rw [himage] at hlt
      exact Bitness.reaches_x86 ((UInt64.lt_iff_toNat_lt.mp hlt).trans_le hstop)

/-- Sections that hold the same bytes either are both refused for the same bytes, or both
decoded. -/
theorem decode_moved (hd : d.Relocates) (hinside : s.isInside = true)
    (hinside' : (s.moved shift).isInside = true)
    (hlow : id.bitness = .x86 →
      s.image.stop.toNat ≤ 2 ^ 32 ∧ (s.moved shift).image.stop.toNat ≤ 2 ^ 32) :
    (∃ k, k < s.bytes.length ∧
      decode d id s = .error (.decode id (s.address + UInt64.ofNat k)) ∧
        decode d id (s.moved shift) =
          .error (.decode id ((s.moved shift).address + UInt64.ofNat k))) ∨
      ∃ v w, decode d id s = .ok v ∧ decode d id (s.moved shift) = .ok w ∧
        Moved shift v w := by
  rcases decodes_or_invalid d id.bitness s.address s.bytes with
    ⟨ps, hps⟩ | ⟨ps, rest, hps, hrest, hnone⟩
  · right
    rcases hps.moved hd shift with ⟨qs, hqs, hmoved⟩
    rcases decode_of_decodes hinside hps with ⟨v, hv, hvs⟩
    have hmovedSection : Decodes d id.bitness (s.moved shift).address (s.moved shift).bytes qs [] :=
      hqs
    rcases decode_of_decodes hinside' hmovedSection with ⟨w, hw, hws⟩
    have hv' := decode_eq_ok hv
    have hw' := decode_eq_ok hw
    refine ⟨v, w, hv, hw, ?_, ?_, ?_, ?_, ?_⟩
    · rw [hv'.id, hw'.id]
    · rw [hv'.image, hw'.image]
      rfl
    · rw [hv'.id, hvs, hws]
      exact hmoved
    · rw [hv'.id]
      exact reaches_of_decode hv fun h => (hlow h).1
    · rw [hv'.id]
      exact reaches_of_decode hw fun h => (hlow h).2
  · left
    rcases hps.moved hd shift with ⟨qs, hqs, _⟩
    have hlength := hps.length_sum
    have hlength' := hqs.length_sum
    have hpos := List.length_pos_iff.mpr hrest
    have hsum : (ps.map Placed.length).sum = (qs.map Placed.length).sum := by lia
    have hplace : s.address + UInt64.ofNat (ps.map Placed.length).sum + shift =
        (s.moved shift).address + UInt64.ofNat (qs.map Placed.length).sum := by
      rw [hsum]
      show _ = s.address + shift + _
      ac_rfl
    have hnone' := hd.decode?_eq_none_moved hnone shift
    rw [hplace] at hnone'
    refine ⟨(ps.map Placed.length).sum, by lia, ?_, ?_⟩
    · exact decode_of_invalidAt hinside (Section.invalidAt_of_decodes hinside hps hrest hnone)
    · rw [hsum]
      exact decode_of_invalidAt hinside' (Section.invalidAt_of_decodes hinside' hqs hrest hnone')

end Decoded

end Variant
end JumpHooks
