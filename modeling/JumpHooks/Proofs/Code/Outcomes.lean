import JumpHooks.Proofs.Code.Boundaries
import JumpHooks.Proofs.Instruction.Locality
import Mathlib.Data.List.Forall2

/-!
# Outcomes of decoding

A section lies outside its image, or it holds bytes that are no instruction, or it is cut into
instructions to its last byte. Decoding tells these three apart, and says where the first bytes
stand that are no instruction.
-/

namespace JumpHooks

variable {d : Disassembler} {b : Bitness} {address : UInt64} {bytes rest : List UInt8}
  {p : Placed} {ps : List Placed}

/-!
# Runs of the sweep
-/

theorem toNat_address_add {address : UInt64} {k : Nat} (h : address.toNat + k < UInt64.size) :
    (address + UInt64.ofNat k).toNat = address.toNat + k := by
  rw [UInt64.toNat_add, UInt64.toNat_ofNat']
  lia

/-- Skipping the bytes of an instruction that is already decoded. -/
theorem sweep_pending {pending : Nat} (h : pending ≤ bytes.length) (decoded : Array Placed) :
    sweep d b address pending bytes decoded =
      sweep d b (address + UInt64.ofNat pending) 0 (bytes.drop pending) decoded := by
  induction pending generalizing address bytes with
  | zero => rw [address_add_zero, List.drop_zero]
  | succ pending ih =>
      cases bytes with
      | nil => exact absurd h (Nat.not_succ_le_zero pending)
      | cons byte bytes =>
          rw [List.drop_succ_cons, ← address_advance]
          exact ih (Nat.le_of_succ_le_succ h)

theorem sweep_some (h : d.decode? b address bytes = some p) (decoded : Array Placed) :
    sweep d b address 0 bytes decoded =
      sweep d b (address + UInt64.ofNat p.length) 0 (bytes.drop p.length) (decoded.push p) := by
  have hpos := (d.wellFormed h).length_pos
  have hlen := d.length_le h
  have hnext : p.length - 1 + 1 = p.length := Nat.sub_add_cancel hpos
  cases bytes with
  | nil => exact absurd (hpos.trans_le hlen) (Nat.lt_irrefl 0)
  | cons byte bytes =>
      rw [List.length_cons] at hlen
      have hstep : sweep d b address 0 (byte :: bytes) decoded =
          sweep d b (address + 1) (p.length - 1) bytes (decoded.push p) := by
        simp only [sweep, h]
      rw [hstep, sweep_pending (by lia), address_advance, hnext, ← hnext,
        List.drop_succ_cons, hnext]

theorem sweep_none (h : d.decode? b address bytes = none) (hbytes : bytes ≠ [])
    (decoded : Array Placed) : sweep d b address 0 bytes decoded = .error address := by
  cases bytes with
  | nil => exact absurd rfl hbytes
  | cons byte bytes => simp only [sweep, h]

namespace Decodes

theorem length_sum (h : Decodes d b address bytes ps rest) :
    (ps.map Placed.length).sum + rest.length = bytes.length :=
  h.totalLength_add

/-- The sweep goes on behind the instructions. -/
theorem sweep_eq (h : Decodes d b address bytes ps rest) (decoded : Array Placed) :
    sweep d b address 0 bytes decoded =
      sweep d b (address + UInt64.ofNat (ps.map Placed.length).sum) 0 rest
        (decoded ++ ps.toArray) := by
  induction h generalizing decoded with
  | nil address bytes =>
      rw [List.map_nil, List.sum_nil, address_add_zero]
      simp
  | cons hp _ ih =>
      rw [sweep_some hp, ih, List.map_cons, List.sum_cons, UInt64.ofNat_add, UInt64.add_assoc]
      simp

end Decodes

theorem sweep_of_decodes (h : Decodes d b address bytes ps []) :
    sweep d b address 0 bytes #[] = .ok ps.toArray := by
  rw [h.sweep_eq]
  show Except.ok (#[] ++ ps.toArray) = _
  simp

theorem sweep_of_invalid (h : Decodes d b address bytes ps rest) (hrest : rest ≠ [])
    (hnone : d.decode? b (address + UInt64.ofNat (ps.map Placed.length).sum) rest = none) :
    sweep d b address 0 bytes #[] =
      .error (address + UInt64.ofNat (ps.map Placed.length).sum) := by
  rw [h.sweep_eq]
  exact sweep_none hnone hrest _

/-- Bytes are instructions to their end, or behind some instructions there are bytes that are
none. -/
theorem decodes_or_invalid (d : Disassembler) (b : Bitness) (address : UInt64)
    (bytes : List UInt8) :
    (∃ ps, Decodes d b address bytes ps []) ∨
      ∃ ps rest, Decodes d b address bytes ps rest ∧ rest ≠ [] ∧
        d.decode? b (address + UInt64.ofNat (ps.map Placed.length).sum) rest = none := by
  -- On the number of bytes: behind the first instruction there are fewer of them.
  induction hn : bytes.length using Nat.strongRecOn generalizing address bytes with
  | ind n ih =>
      cases hp : d.decode? b address bytes with
      | none =>
          by_cases hbytes : bytes = []
          · rw [hbytes]
            exact .inl ⟨[], .nil address []⟩
          · refine .inr ⟨[], bytes, .nil address bytes, hbytes, ?_⟩
            rw [List.map_nil, List.sum_nil, address_add_zero]
            exact hp
      | some p =>
          have hpos := (d.wellFormed hp).length_pos
          have hlen := d.length_le hp
          rcases ih (n - p.length) (by lia) (address + UInt64.ofNat p.length)
            (bytes.drop p.length) (by rw [List.length_drop, hn]) with hall | hinvalid
          · rcases hall with ⟨ps, hps⟩
            exact .inl ⟨p :: ps, .cons hp hps⟩
          · rcases hinvalid with ⟨ps, rest, hps, hrest, hnone⟩
            refine .inr ⟨p :: ps, rest, .cons hp hps, hrest, ?_⟩
            rw [List.map_cons, List.sum_cons, UInt64.ofNat_add, ← UInt64.add_assoc]
            exact hnone

/-!
# Invalid bytes
-/

namespace Section

/-- Both ends of the section lie in its image. The addresses are taken as numbers that do not
wrap around. -/
def LiesInside (s : Section) : Prop :=
  s.image.base.toNat ≤ s.address.toNat ∧
    s.address.toNat + s.bytes.length ≤ s.image.base.toNat + s.image.size.toNat

/-- At `a` stand the first bytes of the section that are no instruction: the instructions before
them follow each other without a gap from the beginning of the section up to `a`. -/
def InvalidAt (s : Section) (d : Disassembler) (b : Bitness) (a : UInt64) : Prop :=
  ∃ ps rest, Decodes d b s.address s.bytes ps rest ∧
    a.toNat = s.address.toNat + (ps.map Placed.length).sum ∧
      a.toNat < s.address.toNat + s.bytes.length ∧ d.decode? b a rest = none

theorem isInside_iff {s : Section}
    (hfits : s.image.base.toNat + s.image.size.toNat < UInt64.size) :
    s.isInside = true ↔ s.LiesInside := by
  unfold isInside LiesInside
  rw [ImageRange.covers_iff]
  constructor
  · intro h
    exact ⟨h.1, h.2.1⟩
  · intro h
    exact ⟨h.1, h.2, hfits⟩

variable {s : Section}

/-- The section ends below the last address. -/
theorem end_lt (hinside : s.isInside = true) :
    s.address.toNat + s.bytes.length < UInt64.size := by
  rcases ImageRange.covers_iff.mp hinside with ⟨_, hend, hfits⟩
  exact hend.trans_lt hfits

theorem invalidAt_of_decodes (hinside : s.isInside = true)
    (h : Decodes d b s.address s.bytes ps rest) (hrest : rest ≠ [])
    (hnone : d.decode? b (s.address + UInt64.ofNat (ps.map Placed.length).sum) rest = none) :
    s.InvalidAt d b (s.address + UInt64.ofNat (ps.map Placed.length).sum) := by
  have hend := s.end_lt hinside
  have hlength := h.length_sum
  have hpos := List.length_pos_iff.mpr hrest
  have ha : (s.address + UInt64.ofNat (ps.map Placed.length).sum).toNat =
      s.address.toNat + (ps.map Placed.length).sum := toNat_address_add (by lia)
  exact ⟨ps, rest, h, ha, by lia, hnone⟩

theorem InvalidAt.sweep_eq {a : UInt64} (h : s.InvalidAt d b a) :
    sweep d b s.address 0 s.bytes #[] = .error a := by
  rcases h with ⟨ps, rest, hps, ha, hlt, hnone⟩
  have hlength := hps.length_sum
  have haddress : s.address + UInt64.ofNat (ps.map Placed.length).sum = a := by
    rw [← UInt64.toNat_inj, toNat_address_add (by rw [← ha]; exact a.toNat_lt), ha]
  have hrest : rest ≠ [] := by
    rintro rfl
    rw [List.length_nil] at hlength
    lia
  have hsweep := sweep_of_invalid hps hrest (by rw [haddress]; exact hnone)
  rw [haddress] at hsweep
  exact hsweep

end Section

/-!
# Decoded sections
-/

namespace Decodes

/-- Instructions are read from the bytes at their places. -/
theorem decode?_eq (h : Decodes d b address bytes ps rest) {k : Nat} (hp : ps[k]? = some p) :
    d.decode? b p.address (bytes.drop ((ps.take k).map Placed.length).sum) = some p := by
  induction h generalizing k with
  | nil => simp at hp
  | cons hq _ ih =>
      cases k with
      | zero =>
          cases hp
          rw [d.address_eq hq]
          exact hq
      | succ k =>
          have hrest := ih hp
          rw [List.drop_drop] at hrest
          rw [List.take_succ_cons, List.map_cons, List.sum_cons]
          exact hrest

theorem first_address (h : Decodes d b address bytes ps []) (hbytes : bytes ≠ []) :
    ∃ p, ps[0]? = some p ∧ p.address = address := by
  cases h with
  | nil => exact absurd rfl hbytes
  | @cons _ _ _ p ps hp _ => exact ⟨p, rfl, d.address_eq hp⟩

end Decodes

/-- The instruction is read from the bytes `piece` and those that follow them in `code`. -/
def Placed.IsReadFrom (d : Disassembler) (b : Bitness) (code piece : List UInt8) (p : Placed) :
    Prop :=
  piece.length = p.length ∧
    ∃ more, piece ++ more <:+ code ∧ d.decode? b p.address (piece ++ more) = some p

/-- The bytes are those of the instructions, one after the other, and each instruction is read
where its own bytes stand. -/
theorem Decodes.exists_pieces (h : Decodes d b address bytes ps []) :
    ∃ pieces : List (List UInt8), pieces.flatten = bytes ∧
      List.Forall₂ (Placed.IsReadFrom d b bytes) pieces ps := by
  generalize hrest : ([] : List UInt8) = rest at h
  induction h with
  | nil => exact ⟨[], hrest, .nil⟩
  | @cons address bytes _ p ps hp _ ih =>
      rcases ih hrest with ⟨pieces, hflatten, hpieces⟩
      refine ⟨bytes.take p.length :: pieces, ?_, .cons ⟨?_, bytes.drop p.length, ?_, ?_⟩ ?_⟩
      · rw [List.flatten_cons, hflatten, List.take_append_drop]
      · exact List.length_take_of_le (d.length_le hp)
      · exact ⟨[], by rw [List.nil_append, List.take_append_drop]⟩
      · rw [List.take_append_drop, d.address_eq hp]
        exact hp
      · refine hpieces.imp ?_
        rintro piece q ⟨hlength, more, hsuffix, hq⟩
        exact ⟨hlength, more, hsuffix.trans (List.drop_suffix _ _), hq⟩

namespace Variant

variable {id : VariantId} {s : Section} {v : Variant}

theorem decode_outside (hinside : ¬ s.isInside = true) :
    decode d id s = .error (.precondition (.codeOutsideImage id s.address s.bytes.length
      s.image.base.toNat s.image.stop.toNat)) :=
  dif_neg hinside

theorem decode_of_invalidAt {a : UInt64} (hinside : s.isInside = true)
    (h : s.InvalidAt d id.bitness a) : decode d id s = .error (.decode id a) := by
  have hsweep := h.sweep_eq
  unfold decode
  rw [dif_pos hinside]
  split
  · rename_i address herror
    rw [hsweep] at herror
    cases herror
    rfl
  · rename_i instructions hok
    rw [hsweep] at hok
    cases hok

theorem decode_of_decodes (hinside : s.isInside = true)
    (h : Decodes d id.bitness s.address s.bytes ps []) :
    ∃ v, decode d id s = .ok v ∧ v.instructions = ps.toArray := by
  have hsweep := sweep_of_decodes h
  unfold decode
  rw [dif_pos hinside]
  split
  · rename_i address herror
    rw [hsweep] at herror
    cases herror
  · rename_i instructions hok
    rw [hsweep] at hok
    cases hok
    exact ⟨_, rfl, rfl⟩

/-- A variant is a section inside its image, and the bytes of the section are its instructions. -/
structure IsDecoded (d : Disassembler) (id : VariantId) (s : Section) (v : Variant) : Prop where
  inside : s.isInside = true
  decodes : Decodes d id.bitness s.address s.bytes v.instructions.toList []
  id : v.id = id
  image : v.image = s.image
  address : v.address = s.address

theorem decode_eq_ok (h : decode d id s = .ok v) : v.IsDecoded d id s := by
  unfold decode at h
  split at h
  · rename_i hinside
    split at h
    · cases h
    · rename_i instructions hsweep
      cases h
      exact ⟨hinside, decodes_of_sweep hsweep, rfl, rfl, rfl⟩
  · cases h

/-- The instructions of the variant are the bytes of the section: they begin with the first byte,
follow each other without a gap or a turn back, and end with the last byte. Each lies in the
image, and is what its own bytes alone say. -/
structure Tiles (d : Disassembler) (v : Variant) (s : Section) : Prop where
  image : v.image = s.image
  first : s.bytes ≠ [] → ∃ p, v.instructions[0]? = some p ∧ p.address = s.address
  next : ∀ (k : Nat) (p q : Placed), v.instructions[k]? = some p →
    v.instructions[k + 1]? = some q → q.address.toNat = p.address.toNat + p.length
  total : (v.instructions.toList.map Placed.length).sum = s.bytes.length
  ascending : v.instructions.toList.Pairwise fun p q => p.address < q.address
  rva : ∀ (k : Nat) (p : Placed), v.instructions[k]? = some p → ∃ rva, v.rva? k = some rva ∧
    v.image.base.toNat + rva.toNat = p.address.toNat ∧
      rva.toNat + p.length ≤ v.image.size.toNat
  own : ∀ (k : Nat) (p : Placed), v.instructions[k]? = some p →
    d.decode? v.id.bitness p.address
      ((s.bytes.drop (p.address.toNat - s.address.toNat)).take p.length) = some p

theorem address_lt (v : Variant) {j k : Nat} {p q : Placed} (hjk : j < k)
    (hp : v.instructions[j]? = some p) (hq : v.instructions[k]? = some q) :
    p.address < q.address := by
  have hlt := v.boundary_lt hjk (lt_size_of_instruction hq).le
  rw [UInt64.lt_iff_toNat_lt, v.address_eq hp, v.address_eq hq]
  lia

/-- An instruction lies in the image from its first byte to its last. -/
theorem exists_rva (v : Variant) {k : Nat} {p : Placed} (hp : v.instructions[k]? = some p) :
    ∃ rva, v.rva? k = some rva ∧ v.image.base.toNat + rva.toNat = p.address.toNat ∧
      rva.toNat + p.length ≤ v.image.size.toNat := by
  refine ⟨p.address - v.image.base, ?_, ?_, ?_⟩
  · unfold rva?
    rw [hp]
    rfl
  · rw [v.rva_toNat hp, v.address_eq hp]
  · rw [v.rva_toNat hp, ← boundary_succ hp]
    exact (v.boundary_mono (lt_size_of_instruction hp)).trans v.boundary_size_le

theorem IsDecoded.tiles (hd : d.Rereads) (h : v.IsDecoded d id s) : v.Tiles d s := by
  refine ⟨h.image, ?_, ?_, h.decodes.length_sum, ?_, fun k p => v.exists_rva, ?_⟩
  · intro hbytes
    rcases h.decodes.first_address hbytes with ⟨p, hp, haddress⟩
    rw [Array.getElem?_toList] at hp
    exact ⟨p, hp, haddress⟩
  · intro k p q hp hq
    rw [v.address_eq hp, v.address_eq hq, boundary_succ hp, Nat.add_assoc]
  · rw [List.pairwise_iff_getElem]
    intro j k hj hk hjk
    exact v.address_lt hjk (Array.getElem?_eq_getElem hj) (Array.getElem?_eq_getElem hk)
  · intro k p hp
    have hplace := v.address_eq hp
    have hbase := v.base_le
    have hread := h.decodes.decode?_eq (k := k) (by rw [Array.getElem?_toList]; exact hp)
    unfold boundary at hplace
    rw [h.address] at hplace hbase
    rw [show ((v.instructions.toList.take k).map Placed.length).sum =
      p.address.toNat - s.address.toNat by lia] at hread
    rw [h.id]
    exact hd hread

/-- What decoding gives for a section inside its image. -/
theorem decode_inside (hinside : s.isInside = true) :
    (∃ a, s.InvalidAt d id.bitness a ∧ decode d id s = .error (.decode id a)) ∨
      (∀ a, ¬ s.InvalidAt d id.bitness a) ∧ ∃ v, decode d id s = .ok v := by
  rcases decodes_or_invalid d id.bitness s.address s.bytes with
    ⟨ps, hps⟩ | ⟨ps, rest, hps, hrest, hnone⟩
  · rcases decode_of_decodes hinside hps with ⟨v, hdecode, _⟩
    refine .inr ⟨?_, v, hdecode⟩
    intro a ha
    rw [decode_of_invalidAt hinside ha] at hdecode
    cases hdecode
  · have ha := Section.invalidAt_of_decodes hinside hps hrest hnone
    exact .inl ⟨_, ha, decode_of_invalidAt hinside ha⟩

/-- Decoding fails exactly for sections outside their images and for sections that hold bytes
which are no instruction, at the first of these. Everything else is cut into instructions. -/
theorem decode_exact (hd : d.Rereads) (id : VariantId) (s : Section)
    (hfits : s.image.base.toNat + s.image.size.toNat < UInt64.size) :
    (decode d id s = .error (.precondition (.codeOutsideImage id s.address
      s.bytes.length s.image.base.toNat s.image.stop.toNat)) ↔ ¬ s.LiesInside) ∧
      (∀ a, decode d id s = .error (.decode id a) ↔
        s.LiesInside ∧ s.InvalidAt d id.bitness a) ∧
        ((∃ v, decode d id s = .ok v) ↔
          s.LiesInside ∧ ∀ a, ¬ s.InvalidAt d id.bitness a) ∧
          ∀ v, decode d id s = .ok v → v.id = id ∧ v.Tiles d s := by
  rw [← Section.isInside_iff hfits]
  by_cases hinside : s.isInside = true
  · rcases decode_inside hinside with ⟨a, ha, hdecode⟩ | ⟨hvalid, v, hdecode⟩
    · rw [hdecode]
      refine ⟨?_, ?_, ?_, ?_⟩
      · simp [hinside]
      · intro a'
        constructor
        · intro h
          cases h
          exact ⟨hinside, ha⟩
        · intro h
          rw [← hdecode]
          exact decode_of_invalidAt hinside h.2
      · constructor
        · intro h
          rcases h with ⟨v, hv⟩
          cases hv
        · intro h
          exact absurd ha (h.2 a)
      · intro v hv
        cases hv
    · have hdecoded := decode_eq_ok hdecode
      rw [hdecode]
      refine ⟨?_, ?_, ?_, ?_⟩
      · simp [hinside]
      · intro a
        simp [hvalid a]
      · simp [hinside, hvalid]
      · intro w hw
        cases hw
        exact ⟨hdecoded.id, hdecoded.tiles hd⟩
  · rw [decode_outside hinside]
    simp [hinside]

/-- The second byte begins no instruction of 64-bit code. -/
def brokenCode : Section where
  image := ⟨0x180000000, 0x100000⟩
  address := 0x180001000
  bytes := [0x90, 0x06, 0xC3]

theorem decode_exact_second_byte :
    Disassembler.generalPurpose.Rereads ∧
      brokenCode.image.base.toNat + brokenCode.image.size.toNat < UInt64.size ∧
        decode .generalPurpose ⟨.game, 6156, .x64⟩ brokenCode =
          .error (.decode ⟨.game, 6156, .x64⟩ 0x180001001) ∧
          brokenCode.LiesInside ∧ brokenCode.InvalidAt .generalPurpose .x64 0x180001001 := by
  have hd := Disassembler.generalPurpose_rereads
  have hfits : brokenCode.image.base.toNat + brokenCode.image.size.toNat < UInt64.size := by
    decide
  have hdecode : decode .generalPurpose ⟨.game, 6156, .x64⟩ brokenCode =
      .error (.decode ⟨.game, 6156, .x64⟩ 0x180001001) := rfl
  rcases decode_exact hd ⟨.game, 6156, .x64⟩ brokenCode hfits with ⟨_, hinvalid, _, _⟩
  exact ⟨hd, hfits, hdecode, (hinvalid _).mp hdecode⟩

end Variant
end JumpHooks
