import JumpHooks.Proofs.Code.Outcomes

/-!
# Code behind other code

Decoding code that is put together from two parts is decoding the parts one after the other,
whenever the first part is cut into instructions to its end. Where the second part fails, the whole
fails at the same address.
-/

namespace JumpHooks

namespace Decodes

variable {d : Disassembler} {b : Bitness} {address : UInt64} {bytes mid rest : List UInt8}
  {ps qs : List Placed}

/-- With more bytes at the end the same instructions are decoded. -/
theorem followedBy (hd : d.IgnoresRest) (h : Decodes d b address bytes ps rest)
    (more : List UInt8) : Decodes d b address (bytes ++ more) ps (rest ++ more) := by
  induction h with
  | nil address bytes => exact .nil address (bytes ++ more)
  | cons hp _ ih =>
      apply Decodes.cons (hd hp more)
      rw [List.drop_append_of_le_length (d.length_le hp)]
      exact ih

/-- Decoding goes on behind the instructions. -/
theorem append (h : Decodes d b address bytes ps mid)
    (hmore : Decodes d b (address + UInt64.ofNat (ps.map Placed.length).sum) mid qs rest) :
    Decodes d b address bytes (ps ++ qs) rest := by
  induction h with
  | nil address bytes =>
      rw [List.map_nil, List.sum_nil, address_add_zero] at hmore
      exact hmore
  | cons hp _ ih =>
      rw [List.map_cons, List.sum_cons, UInt64.ofNat_add, ← UInt64.add_assoc] at hmore
      exact .cons hp (ih hmore)

end Decodes

namespace Section

/-- The code in front of `more`. -/
def followedBy (s : Section) (more : List UInt8) : Section where
  image := s.image
  address := s.address
  bytes := s.bytes ++ more

/-- Other code behind the last byte. -/
def behind (s : Section) (more : List UInt8) : Section where
  image := s.image
  address := s.address + UInt64.ofNat s.bytes.length
  bytes := more

variable {d : Disassembler} {b : Bitness} {s : Section} {more rest : List UInt8}
  {ps qs : List Placed}

theorem isInside_followedBy_iff :
    (s.followedBy more).isInside = true ↔
      s.image.base.toNat ≤ s.address.toNat ∧
        s.address.toNat + (s.bytes.length + more.length) ≤
          s.image.base.toNat + s.image.size.toNat ∧
        s.image.base.toNat + s.image.size.toNat < UInt64.size := by
  rw [← List.length_append]
  exact ImageRange.covers_iff

theorem toNat_address_behind (h : (s.followedBy more).isInside = true) :
    (s.behind more).address.toNat = s.address.toNat + s.bytes.length := by
  rcases isInside_followedBy_iff.mp h with ⟨_, hend, hfits⟩
  exact toNat_address_add (by lia)

theorem isInside_behind (h : (s.followedBy more).isInside = true) :
    (s.behind more).isInside = true := by
  have haddress := toNat_address_behind h
  rcases isInside_followedBy_iff.mp h with ⟨hbase, hend, hfits⟩
  refine ImageRange.covers_iff.mpr ⟨?_, ?_, hfits⟩
  · show s.image.base.toNat ≤ (s.behind more).address.toNat
    lia
  · show (s.behind more).address.toNat + more.length ≤ s.image.base.toNat + s.image.size.toNat
    lia

/-- What is decoded of the second part is decoded of the whole behind the first part. -/
theorem decodes_followedBy (hd : d.IgnoresRest) (h : Decodes d b s.address s.bytes ps [])
    (hmore : Decodes d b (s.behind more).address (s.behind more).bytes qs rest) :
    Decodes d b (s.followedBy more).address (s.followedBy more).bytes (ps ++ qs) rest := by
  have hlength : (ps.map Placed.length).sum = s.bytes.length := h.length_sum
  apply (h.followedBy hd more).append
  rw [hlength]
  exact hmore

/-- Bytes that are no instruction are the first ones of the whole if nothing in front of them is
wrong. -/
theorem InvalidAt.followedBy (hd : d.IgnoresRest) {a : UInt64}
    (hinside : (s.followedBy more).isInside = true) (h : Decodes d b s.address s.bytes ps [])
    (hinvalid : (s.behind more).InvalidAt d b a) : (s.followedBy more).InvalidAt d b a := by
  have hlength : (ps.map Placed.length).sum = s.bytes.length := h.length_sum
  rcases hinvalid with ⟨qs, rest, hqs, ha, hlt, hnone⟩
  change _ < _ + more.length at hlt
  rw [toNat_address_behind hinside] at ha hlt
  refine ⟨ps ++ qs, rest, decodes_followedBy hd h hqs, ?_, ?_, hnone⟩
  · rw [List.map_append, List.sum_append, hlength, ha, Nat.add_assoc]
    rfl
  · show a.toNat < s.address.toNat + (s.bytes ++ more).length
    rw [List.length_append]
    lia

end Section

namespace Variant

open Section

/-- The whole is decoded exactly if the second part is, and then has the instructions of both parts,
those of the first part in front. -/
theorem decode_followedBy {d : Disassembler} (hd : d.IgnoresRest) {id : VariantId} {s : Section}
    {more : List UInt8} {v : Variant} (hinside : (s.followedBy more).LiesInside)
    (h : Variant.decode d id s = .ok v) :
    ((∃ w, Variant.decode d id (s.followedBy more) = .ok w) ↔
      ∃ u, Variant.decode d id (s.behind more) = .ok u) ∧
    (∀ w u, Variant.decode d id (s.followedBy more) = .ok w →
      Variant.decode d id (s.behind more) = .ok u →
        w.instructions = v.instructions ++ u.instructions) ∧
    ∀ e, Variant.decode d id (s.behind more) = .error e →
      ∃ a, e = .decode id a ∧
        Variant.decode d id (s.followedBy more) = .error (.decode id a) := by
  have hv := decode_eq_ok h
  have hfits := (ImageRange.covers_iff.mp hv.inside).2.2
  have hinside := (isInside_iff (s := s.followedBy more) hfits).mpr hinside
  have hbehind := isInside_behind hinside
  rcases decodes_or_invalid d id.bitness (s.behind more).address (s.behind more).bytes with
    ⟨qs, hqs⟩ | ⟨qs, rest, hqs, hrest, hnone⟩
  · rcases decode_of_decodes hinside (decodes_followedBy hd hv.decodes hqs) with
      ⟨w, hwhole, hw⟩
    rcases decode_of_decodes hbehind hqs with ⟨u, hpart, hu⟩
    rw [hwhole, hpart]
    refine ⟨by simp, ?_, ?_⟩
    · intro w' u' hw' hu'
      cases hw'
      cases hu'
      rw [hw, hu]
      simp
    · intro e he
      cases he
  · have hinvalid := invalidAt_of_decodes hbehind hqs hrest hnone
    have hwhole := decode_of_invalidAt hinside (hinvalid.followedBy hd hinside hv.decodes)
    rw [hwhole, decode_of_invalidAt hbehind hinvalid]
    refine ⟨by simp, ?_, ?_⟩
    · intro w u hw
      cases hw
    · intro e he
      cases he
      exact ⟨_, rfl, rfl⟩

/-- Two functions, the first of which calls the second one. -/
def callerCode : Section where
  image := ⟨0x180000000, 0x1008⟩
  address := 0x180001000
  bytes := [0xE8, 0x01, 0, 0, 0, 0xC3]

/-- The whole ends with the image. The call goes from one part to the other, so that only the
index of the whole knows it. -/
theorem decode_followedBy_callerCode :
    Disassembler.generalPurpose.IgnoresRest ∧
      (callerCode.followedBy [0x90, 0xC3]).LiesInside ∧
        ∃ v u w, decode .generalPurpose ⟨.game, 6156, .x64⟩ callerCode = .ok v ∧
          decode .generalPurpose ⟨.game, 6156, .x64⟩ (callerCode.behind [0x90, 0xC3]) = .ok u ∧
          decode .generalPurpose ⟨.game, 6156, .x64⟩ (callerCode.followedBy [0x90, 0xC3]) =
            .ok w ∧
          w.instructions = v.instructions ++ u.instructions ∧
            w.isEntered 2 = true ∧ u.isEntered 0 = false := by
  have hinside : (callerCode.followedBy [0x90, 0xC3]).LiesInside := by
    unfold LiesInside
    decide
  have hv : decode .generalPurpose ⟨.game, 6156, .x64⟩ callerCode = .ok _ := rfl
  have hu : decode .generalPurpose ⟨.game, 6156, .x64⟩ (callerCode.behind [0x90, 0xC3]) =
      .ok _ := rfl
  have hw : decode .generalPurpose ⟨.game, 6156, .x64⟩ (callerCode.followedBy [0x90, 0xC3]) =
      .ok _ := rfl
  have hd := Disassembler.generalPurpose_ignoresRest
  have hparts := (decode_followedBy hd hinside hv).2.1 _ _ hw hu
  exact ⟨hd, hinside, _, _, _, hv, hu, hw, hparts, by decide +kernel, by decide +kernel⟩

end Variant
end JumpHooks
