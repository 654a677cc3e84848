import JumpHooks.Proofs.Image.Construction

/-!
# Loaded modules

A module that is loaded is the one that was asked for, and a module that was laid out is loaded
as its code is decoded.
-/

namespace JumpHooks
namespace Image

open Outcome

/-!
# Identity
-/

theorem checkIdentity_eq_ok {expected : VariantId} {info : Info} {u : Unit} :
    checkIdentity expected info = .ok u ↔ info.bitness = expected.bitness ∧
      ∃ n, info.build = some n ∧ realBuild expected.subsystem n = expected.build := by
  unfold checkIdentity
  by_cases hb : info.bitness = expected.bitness
  · rw [if_neg (not_not.mpr hb)]
    cases info.build with
    | none => simp
    | some n =>
        dsimp only
        by_cases hbuild : realBuild expected.subsystem n = expected.build
        · simp [hb, hbuild]
        · simp [hbuild]
  · simp [hb]

theorem load_eq_ok_iff {l : Libraries} {file : ByteArray} {expected : VariantId} {v : Variant} :
    load l file expected = .ok v ↔ ∃ info, inspect l.reader file = .ok info ∧
      (info.bitness = expected.bitness ∧
        ∃ n, info.build = some n ∧ realBuild expected.subsystem n = expected.build) ∧
      Variant.decode l.disassembler expected info.code = .ok v := by
  unfold load
  simp only [bind_eq_ok, checkIdentity_eq_ok, exists_const]

/-- A file that is not the module that is expected is a fault of the caller. -/
theorem checkIdentity_ok_or_error (expected : VariantId) (info : Info) :
    checkIdentity expected info = .ok () ∨
      ∃ cause, checkIdentity expected info = .error (.precondition cause) := by
  unfold checkIdentity
  split
  · exact .inr ⟨_, rfl⟩
  · split
    · exact .inr ⟨_, rfl⟩
    · dsimp only
      split
      · exact .inr ⟨_, rfl⟩
      · exact .inl rfl

/-- Once the file is inspected, only the identity decides whether the code is decoded. -/
theorem load_eq_of_inspect {l : Libraries} {file : ByteArray} {expected : VariantId} {info : Info}
    (h : inspect l.reader file = .ok info) :
    load l file expected =
      (checkIdentity expected info).bind fun _ =>
        Variant.decode l.disassembler expected info.code := by
  unfold load
  rw [h]
  rfl

/-!
# Loaded variants
-/

/-- The instructions of the variant are the code that the file holds for the section: their bytes
follow each other without a gap, the first one is where the section is loaded, and all of them
lie in the image. -/
structure HoldsCode (d : Disassembler) (file : ByteArray) (text : SectionHeader) (v : Variant) :
    Prop where
  fits : text.rawPointer + text.rawSize ≤ file.size
  pieces : ∃ pieces : List (List UInt8),
    pieces.flatten =
        range file text.rawPointer (text.rawPointer + min text.rawSize text.virtualSize) ∧
      List.Forall₂ (Placed.IsReadFrom d v.id.bitness pieces.flatten) pieces v.instructions.toList
  first : ∀ rva, v.rva? 0 = some rva → rva.toNat = text.virtualAddress
  inside : ∀ k p, v.instructions[k]? = some p → ∃ rva, v.rva? k = some rva ∧
    rva.toNat + p.length ≤ v.image.size.toNat

/-- The file is the module that was asked for, with its headers at `e`, and the variant is its
code. -/
structure IsModule (d : Disassembler) (file : ByteArray) (e : Nat) (h : Headers)
    (expected : VariantId) (v : Variant) : Prop where
  id : v.id = expected
  headers : HeadersAt expected.bitness file e h
  magic_x64 : u16? file (e + 24) = some 0x20B ↔ expected.bitness = .x64
  magic_x86 : u16? file (e + 24) = some 0x10B ↔ expected.bitness = .x86
  base : base? file e expected.bitness = some v.image.base.toNat
  size : u32? file (e + 80) = some v.image.size.toNat
  build : ∃ n, ReportsBuild file h n ∧
    expected.build = if expected.subsystem = .renderD3D10 ∧ n = 1 then 5767 else n
  code : ∃ text, FirstText h.sections text ∧ HoldsCode d file text v

theorem HeadersAt.magic_iff {b : Bitness} {file : ByteArray} {e : Nat} {h : Headers}
    (he : HeadersAt b file e h) :
    (u16? file (e + 24) = some 0x20B ↔ b = .x64) ∧
      (u16? file (e + 24) = some 0x10B ↔ b = .x86) := by
  rw [he.magic]
  cases b <;> simp [Image.magic]

theorem HeadersAt.base_lt {b : Bitness} {file : ByteArray} {e : Nat} {h : Headers}
    (he : HeadersAt b file e h) : h.imageBase < UInt64.size := by
  have hbase := he.base
  cases b with
  | x64 => exact number?_lt hbase
  | x86 => exact (number?_lt hbase).trans (by decide)

theorem HeadersAt.size_lt {b : Bitness} {file : ByteArray} {e : Nat} {h : Headers}
    (he : HeadersAt b file e h) : h.imageSize < 2 ^ 32 :=
  number?_lt he.imageSize

section Loaded

variable {l : Libraries} {file : ByteArray} {info : Info} {e : Nat} {h : Headers}
  {text : SectionHeader}

/-- The address of the code does not wrap around, since the code lies in the image. -/
theorem Says.toNat_address (hread : Says l.reader file info h text)
    (he : HeadersAt h.bitness file e h) (hinside : info.code.isInside = true) :
    info.code.address.toNat = info.code.image.base.toNat + text.virtualAddress := by
  rcases he.sectionAt hread.first.mem with ⟨offset, hs⟩
  have hbase := he.base_lt
  have hplace := number?_lt hs.virtualAddress
  have hle := (ImageRange.covers_iff.mp hinside).1
  rw [hread.image, hread.address, UInt64.toNat_ofNat_of_lt' hbase, UInt64.toNat_ofNat'] at hle
  rw [hread.image, hread.address, UInt64.toNat_ofNat_of_lt' hbase, UInt64.toNat_ofNat']
  lia

/-- What is decoded from the code section of the file. -/
theorem Says.holdsCode (hr : l.reader.FollowsFormat) (hread : Says l.reader file info h text)
    (he : HeadersAt h.bitness file e h) {expected : VariantId} {v : Variant}
    (hv : Variant.decode l.disassembler expected info.code = .ok v) :
    HoldsCode l.disassembler file text v := by
  have hdecoded := Variant.decode_eq_ok hv
  rcases hread.code with ⟨raw, hraw, hcode⟩
  rcases hr.bytes he hread.first.mem hraw with ⟨hfits, rfl⟩
  rw [take_range] at hcode
  constructor
  · exact hfits
  · rw [← hcode, hdecoded.id]
    rcases hdecoded.decodes.exists_pieces with ⟨pieces, hflatten, hpieces⟩
    refine ⟨pieces, hflatten, ?_⟩
    rw [hflatten]
    exact hpieces
  · intro rva hrva
    rcases Option.map_eq_some_iff.mp hrva with ⟨p, hp, rfl⟩
    have hbegin : v.boundary 0 = v.address.toNat - v.image.base.toNat := Nat.add_zero _
    rw [v.rva_toNat hp, hbegin, hdecoded.address, hdecoded.image,
      hread.toNat_address he hdecoded.inside, Nat.add_sub_cancel_left]
  · intro k p hp
    rcases v.exists_rva hp with ⟨rva, hrva, _, hend⟩
    exact ⟨rva, hrva, hend⟩

end Loaded

/-- A variant that is loaded from a file is the one that was asked for. -/
theorem load_eq_ok {l : Libraries} (hr : l.reader.FollowsFormat) {file : ByteArray}
    {expected : VariantId} {v : Variant} (h : load l file expected = .ok v) :
    ∃ e hdr, IsModule l.disassembler file e hdr expected v := by
  rcases load_eq_ok_iff.mp h with ⟨info, hinspect, ⟨hb, n, hbuild, hreal⟩, hv⟩
  rcases inspect_eq_ok.mp hinspect with ⟨hdr, text, hread⟩
  rcases hr.headersAt hread.headers with ⟨e, he⟩
  have hcode := hread.holdsCode hr he hv
  have hreports := hread.build
  rw [hbuild] at hreports
  have hbuilds := hr.build he hreports
  have himage : v.image = info.code.image := (Variant.decode_eq_ok hv).image
  rw [hread.image] at himage
  rw [← hread.bitness, hb] at he
  exact ⟨e, hdr, {
    id := (Variant.decode_eq_ok hv).id
    headers := he
    magic_x64 := he.magic_iff.1
    magic_x86 := he.magic_iff.2
    base := by rw [he.base, himage, UInt64.toNat_ofNat_of_lt' he.base_lt]
    size := by
      rw [he.imageSize, himage, UInt64.toNat_ofNat_of_lt' (he.size_lt.trans (by decide))]
    build := ⟨n, hbuilds, hreal.symm⟩
    code := ⟨text, hread.first, hcode⟩ }⟩

theorem load_eq_ok_return :
    FileReader.portable.FollowsFormat ∧
      ∃ v, load ⟨.portable, .generalPurpose⟩
          (moduleFile .x64 [0xC3] (List.replicate 511 0xCC) (some 6156)) ⟨.game, 6156, .x64⟩ =
            .ok v ∧
        ∃ e hdr, IsModule .generalPurpose
          (moduleFile .x64 [0xC3] (List.replicate 511 0xCC) (some 6156)) e hdr
            ⟨.game, 6156, .x64⟩ v := by
  have hr := FileReader.portable_followsFormat
  have hinspect := @inspect_moduleFile .x64 [0xC3] (List.replicate 511 0xCC) (some 6156)
    (by rw [List.length_replicate]; rfl)
  have hloads := @load_eq_of_inspect ⟨.portable, .generalPurpose⟩ _ ⟨.game, 6156, .x64⟩ _ hinspect
  have hdecodes : (Variant.decode .generalPurpose ⟨.game, 6156, .x64⟩
      (moduleSection .x64 [0xC3])).isOk = true := by
    decide +kernel
  cases hv : Variant.decode .generalPurpose ⟨.game, 6156, .x64⟩ (moduleSection .x64 [0xC3]) with
  | error e =>
      rw [hv] at hdecodes
      cases hdecodes
  | ok v =>
      have hload := hloads.trans hv
      exact ⟨hr, v, hload, load_eq_ok hr hload⟩

/-!
# Laid out modules
-/

/-- A module for this instruction set that reports this build is the one that `id` names. -/
def Expects (id : VariantId) (b : Bitness) (build : Option UInt16) : Prop :=
  id.bitness = b ∧ ∃ n, build = some n ∧ realBuild id.subsystem n.toNat = id.build

theorem checkIdentity_eq_ok_iff_expects {id : VariantId} {b : Bitness} {build : Option UInt16}
    {code : Section} : checkIdentity id ⟨b, build.map UInt16.toNat, code⟩ = .ok () ↔
      Expects id b build := by
  rw [checkIdentity_eq_ok]
  unfold Expects
  constructor
  · rintro ⟨hb, n, hbuild, hreal⟩
    rcases Option.map_eq_some_iff.mp hbuild with ⟨m, hm, rfl⟩
    exact ⟨hb.symm, m, hm, hreal⟩
  · rintro ⟨hb, n, rfl, hreal⟩
    exact ⟨hb.symm, _, rfl, hreal⟩

/-- A module that was laid out says what it was made from, whatever fills up the section of its
code. It is loaded as this code is decoded if it is the one that is asked for, and is otherwise
refused. -/
theorem load_moduleFile (d : Disassembler) {b : Bitness} {code filler : List UInt8}
    (build : Option UInt16) (h : code.length + filler.length = 0x200) :
    inspect .portable (moduleFile b code filler build) =
        .ok ⟨b, build.map UInt16.toNat, moduleSection b code⟩ ∧
      ∀ id, (Expects id b build → load ⟨.portable, d⟩ (moduleFile b code filler build) id =
          Variant.decode d id (moduleSection b code)) ∧
        (¬ Expects id b build → ∃ cause, load ⟨.portable, d⟩ (moduleFile b code filler build) id =
          .error (.precondition cause)) := by
  have hinspect := @inspect_moduleFile b code filler build h
  refine ⟨hinspect, ?_⟩
  intro id
  have hload := @load_eq_of_inspect ⟨.portable, d⟩ _ id _ hinspect
  constructor
  · intro hexpected
    rw [hload, checkIdentity_eq_ok_iff_expects.mpr hexpected]
    rfl
  · intro hother
    rcases checkIdentity_ok_or_error id ⟨b, build.map UInt16.toNat, moduleSection b code⟩ with
      hok | ⟨cause, hcause⟩
    · exact absurd (checkIdentity_eq_ok_iff_expects.mp hok) hother
    · refine ⟨cause, ?_⟩
      rw [hload, hcause]
      rfl

theorem load_moduleFile_unset_build :
    ([0xC3] : List UInt8).length + (List.replicate 511 0x90 : List UInt8).length = 0x200 ∧
      inspect .portable (moduleFile .x86 [0xC3] (List.replicate 511 0x90) (some 1)) =
          .ok ⟨.x86, some 1, moduleSection .x86 [0xC3]⟩ ∧
        load ⟨.portable, .generalPurpose⟩
            (moduleFile .x86 [0xC3] (List.replicate 511 0x90) (some 1))
            ⟨.renderD3D10, 5767, .x86⟩ =
          Variant.decode .generalPurpose ⟨.renderD3D10, 5767, .x86⟩ (moduleSection .x86 [0xC3]) ∧
        ∃ cause, load ⟨.portable, .generalPurpose⟩
            (moduleFile .x86 [0xC3] (List.replicate 511 0x90) (some 1))
            ⟨.game, 5767, .x86⟩ = .error (.precondition cause) := by
  have hfull : ([0xC3] : List UInt8).length + (List.replicate 511 0x90 : List UInt8).length =
      0x200 := by
    rw [List.length_replicate]
    rfl
  have hreads := @load_moduleFile .generalPurpose .x86 [0xC3] (List.replicate 511 0x90) (some 1)
    hfull
  refine ⟨hfull, hreads.1, (hreads.2 _).1 ⟨rfl, 1, rfl, rfl⟩, (hreads.2 _).2 ?_⟩
  rintro ⟨_, n, hn, hreal⟩
  cases hn
  cases hreal

end Image
end JumpHooks
