import JumpHooks.Code.Subroutine
import Mathlib.Algebra.Order.Ring.Nat

/-!
# Boundaries of instructions

The instructions of a variant follow each other without a gap. Since they lie in the image and
the image ends below the last address, their addresses never wrap around, and an instruction is
known by its address.
-/

namespace JumpHooks

/-!
# Images
-/

namespace ImageRange

theorem toNat_stop {r : ImageRange} (h : r.base.toNat + r.size.toNat < UInt64.size) :
    r.stop.toNat = r.base.toNat + r.size.toNat := by
  unfold stop
  rw [UInt64.toNat_add]
  exact Nat.mod_eq_of_lt h

/-- An image that wraps around ends before it begins. -/
theorem base_le_stop_iff {r : ImageRange} :
    r.base.toNat ≤ r.stop.toNat ↔ r.base.toNat + r.size.toNat < UInt64.size := by
  have hbase := r.base.toNat_lt
  have hsize := r.size.toNat_lt
  unfold stop
  rw [UInt64.toNat_add]
  constructor
  · intro h
    by_contra hwraps
    rw [Nat.mod_eq_sub_mod (by lia), Nat.mod_eq_of_lt (by lia)] at h
    lia
  · intro h
    rw [Nat.mod_eq_of_lt h]
    lia

theorem contains_eq_true {r : ImageRange} {address : UInt64} :
    r.contains address = true ↔ r.base ≤ address ∧ address < r.stop := by
  unfold contains
  rw [Bool.and_eq_true, decide_eq_true_eq, decide_eq_true_eq]

theorem covers_iff {r : ImageRange} {address : UInt64} {length : Nat} :
    r.covers address length = true ↔
      r.base.toNat ≤ address.toNat ∧ address.toNat + length ≤ r.base.toNat + r.size.toNat ∧
        r.base.toNat + r.size.toNat < UInt64.size := by
  unfold covers
  rw [Bool.and_eq_true, decide_eq_true_eq, decide_eq_true_eq, UInt64.le_iff_toNat_le]
  constructor
  · rintro ⟨hbase, hstop⟩
    have hfits := base_le_stop_iff.mp (hbase.trans (Nat.le_of_add_right_le hstop))
    rw [toNat_stop hfits] at hstop
    exact ⟨hbase, hstop, hfits⟩
  · rintro ⟨hbase, hstop, hfits⟩
    rw [toNat_stop hfits]
    exact ⟨hbase, hstop⟩

/-- An address lies in an image exactly if one byte at it does. -/
theorem contains_iff {r : ImageRange} {address : UInt64} :
    r.contains address = true ↔
      r.base.toNat ≤ address.toNat ∧ address.toNat < r.base.toNat + r.size.toNat ∧
        r.base.toNat + r.size.toNat < UInt64.size := by
  have hbyte : r.contains address = true ↔ r.covers address 1 = true := by
    unfold covers
    rw [contains_eq_true, Bool.and_eq_true, decide_eq_true_eq, decide_eq_true_eq,
      UInt64.lt_iff_toNat_lt, Nat.lt_iff_add_one_le]
  exact hbyte.trans covers_iff

end ImageRange

/-!
# Instructions one behind the other
-/

namespace Consecutive

variable {address : UInt64} {ps : List Placed}

theorem wellFormed (h : Consecutive address ps) : ∀ p ∈ ps, p.WellFormed := by
  induction h with
  | nil => simp
  | cons hp _ ih =>
      intro q hq
      rcases List.mem_cons.mp hq with rfl | hq
      · exact hp
      · exact ih q hq

/-- Instructions stand where the ones before them end. -/
theorem address_toNat (h : Consecutive address ps)
    (hfits : address.toNat + (ps.map Placed.length).sum < UInt64.size) {k : Nat} {p : Placed}
    (hp : ps[k]? = some p) :
    p.address.toNat = address.toNat + ((ps.take k).map Placed.length).sum := by
  induction h generalizing k with
  | nil => simp at hp
  | @cons q ps hq _ ih =>
      rw [List.map_cons, List.sum_cons] at hfits
      cases k with
      | zero =>
          cases hp
          rfl
      | succ k =>
          have hnext : (q.address + UInt64.ofNat q.length).toNat =
              q.address.toNat + q.length := by
            rw [UInt64.toNat_add, UInt64.toNat_ofNat']
            lia
          have hrest := ih (by rw [hnext]; lia) hp
          rw [hrest, hnext, List.take_succ_cons, List.map_cons, List.sum_cons, Nat.add_assoc]

end Consecutive

/-!
# Boundaries
-/

namespace Variant

/-- The place between the first `k` instructions and the rest, relative to the image base. -/
def boundary (v : Variant) (k : Nat) : Nat :=
  v.address.toNat - v.image.base.toNat +
    ((v.instructions.toList.take k).map Placed.length).sum

theorem wellFormed (v : Variant) {p : Placed} (hp : p ∈ v.instructions) : p.WellFormed :=
  v.gapless.consecutive.wellFormed p (Array.mem_toList_iff.mpr hp)

/-- The instructions of a variant lie in its image, which does not wrap around. -/
theorem inside (v : Variant) :
    v.image.base.toNat ≤ v.address.toNat ∧
      v.address.toNat + (v.instructions.toList.map Placed.length).sum ≤
        v.image.base.toNat + v.image.size.toNat ∧
          v.image.base.toNat + v.image.size.toNat < UInt64.size :=
  ImageRange.covers_iff.mp v.gapless.inside

theorem base_le (v : Variant) : v.image.base.toNat ≤ v.address.toNat :=
  v.inside.1

theorem image_fits (v : Variant) :
    v.image.base.toNat + v.image.size.toNat < UInt64.size :=
  v.inside.2.2

theorem address_eq (v : Variant) {k : Nat} {p : Placed} (hp : v.instructions[k]? = some p) :
    p.address.toNat = v.image.base.toNat + v.boundary k := by
  rcases v.inside with ⟨hbase, hend, hfits⟩
  rw [← Array.getElem?_toList] at hp
  have haddress := v.gapless.consecutive.address_toNat (hend.trans_lt hfits) hp
  unfold boundary
  lia

theorem boundary_size_le (v : Variant) : v.boundary v.size ≤ v.image.size.toNat := by
  rcases v.inside with ⟨hbase, hend, _⟩
  have hsize : v.instructions.toList.take v.size = v.instructions.toList := by
    unfold size
    rw [← Array.length_toList, List.take_length]
  unfold boundary
  rw [hsize]
  lia

theorem boundary_succ {v : Variant} {k : Nat} {p : Placed} (hp : v.instructions[k]? = some p) :
    v.boundary (k + 1) = v.boundary k + p.length := by
  have hp' : v.instructions.toList[k]? = some p := by
    rw [Array.getElem?_toList]
    exact hp
  unfold boundary
  rw [List.take_add_one, hp', List.map_append, List.sum_append]
  simp [Nat.add_assoc]

theorem boundary_add (v : Variant) (j k : Nat) :
    v.boundary (j + k) =
      v.boundary j + (((v.instructions.toList.drop j).take k).map Placed.length).sum := by
  unfold boundary
  rw [List.take_add, List.map_append, List.sum_append, Nat.add_assoc]

theorem boundary_mono (v : Variant) {j k : Nat} (hjk : j ≤ k) : v.boundary j ≤ v.boundary k := by
  rw [← Nat.add_sub_cancel' hjk, boundary_add]
  exact Nat.le_add_right _ _

theorem lt_of_boundary_lt {v : Variant} {j k : Nat} (h : v.boundary j < v.boundary k) :
    j < k := by
  by_contra hle
  exact absurd h (Nat.not_lt.mpr (v.boundary_mono (Nat.not_lt.mp hle)))

/-- The leading instructions of a subroutine reach from its start to the boundary behind
them. -/
theorem boundary_add_lengths (v : Variant) {s : Subroutine} {k : Nat} (hk : k ≤ s.size) :
    v.boundary s.start + ((v.lengths s).take k).sum = v.boundary (s.start + k) := by
  unfold lengths
  rw [boundary_add, ← List.map_take, v.body_eq, List.take_take, Nat.min_eq_left hk]

theorem length_lengths_le (v : Variant) (s : Subroutine) : (v.lengths s).length ≤ s.size := by
  unfold lengths body slice Subroutine.size
  rw [List.length_map, Array.length_toList, Array.size_extract]
  lia

theorem exists_instruction {v : Variant} {k : Nat} (hk : k < v.size) :
    ∃ p, v.instructions[k]? = some p :=
  ⟨v.instructions[k], Array.getElem?_eq_getElem hk⟩

theorem lt_size_of_instruction {v : Variant} {k : Nat} {p : Placed}
    (hp : v.instructions[k]? = some p) : k < v.size :=
  (Array.getElem?_eq_some_iff.mp hp).1

theorem boundary_lt_succ (v : Variant) {k : Nat} (hk : k < v.size) :
    v.boundary k < v.boundary (k + 1) := by
  rcases exists_instruction hk with ⟨p, hp⟩
  rw [boundary_succ hp]
  have hpos := (v.wellFormed (Array.mem_of_getElem? hp)).length_pos
  lia

theorem boundary_lt (v : Variant) {j k : Nat} (hjk : j < k) (hk : k ≤ v.size) :
    v.boundary j < v.boundary k := by
  induction k with
  | zero => lia
  | succ k ih =>
      have hstep := v.boundary_lt_succ (k := k) (by lia)
      rcases Nat.lt_succ_iff_lt_or_eq.mp hjk with hlt | rfl
      · exact (ih hlt (by lia)).trans hstep
      · exact hstep

/-- An address relative to the image base is the boundary before its instruction. -/
theorem rva_toNat (v : Variant) {k : Nat} {p : Placed} (hp : v.instructions[k]? = some p) :
    (p.address - v.image.base).toNat = v.boundary k := by
  have haddress := v.address_eq hp
  have hle : v.image.base ≤ p.address := by
    rw [UInt64.le_iff_toNat_le]
    lia
  rw [UInt64.toNat_sub_of_le _ _ hle]
  lia

theorem rvaOf_toNat (v : Variant) {s : Subroutine} (hs : s.start < v.size) :
    (v.rvaOf s).toNat = v.boundary s.start := by
  rcases exists_instruction hs with ⟨p, hp⟩
  unfold rvaOf rva?
  rw [hp]
  exact v.rva_toNat hp

/-- Every instruction lies in the image. -/
theorem contains_address (v : Variant) {k : Nat} {p : Placed}
    (hp : v.instructions[k]? = some p) : v.image.contains p.address = true := by
  have haddress := v.address_eq hp
  have hlt := v.boundary_lt (lt_size_of_instruction hp) (Nat.le_refl _)
  have hend := v.boundary_size_le
  have hfits := v.image_fits
  rw [ImageRange.contains_iff]
  lia

end Variant
end JumpHooks
