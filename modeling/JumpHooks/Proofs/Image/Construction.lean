import JumpHooks.Proofs.Image.Inspection
import JumpHooks.Proofs.Image.Layout

/-!
# Inspection of laid out modules

What is laid out as a module is read again: the headers, the section with the code, and the
version. The bytes that fill up the section of the code are not read.
-/

namespace JumpHooks
namespace Image

/-!
# The places of the fields
-/

theorem Field.Before.trans {f g h : Field} (hfg : f.Before g) (hgh : g.Before h) : f.Before h := by
  have hg : g.offset ≤ g.stop := Nat.le_add_right _ _
  exact (Nat.le_trans hfg hg).trans hgh

instance : Trans Field.Before Field.Before Field.Before where
  trans := Field.Before.trans

theorem length_headerBytes {name : List UInt8} (hname : name.length = 8)
    (virtualSize virtualAddress rawSize rawPointer flags : UInt64) :
    (headerBytes name virtualSize virtualAddress rawSize rawPointer flags).length = 40 := by
  simp [headerBytes, length_littleEndian, hname]

theorem length_directoryBytes (number target : UInt64) :
    (directoryBytes number target).length = 24 := by
  simp [directoryBytes, length_littleEndian]

theorem length_wordBytes (words : List UInt16) : (wordBytes words).length = 2 * words.length := by
  induction words with
  | nil => rfl
  | cons w words ih =>
      show (littleEndian 2 w.toUInt64 ++ wordBytes words).length = _
      rw [List.length_append, length_littleEndian, ih, List.length_cons]
      lia

theorem length_versionWords (n : UInt16) : (versionWords n).length = 46 :=
  rfl

theorem length_versionResource (n : UInt16) : (versionResource n).length = 180 := by
  simp [versionResource, length_directoryBytes, length_wordBytes, length_versionWords,
    length_littleEndian]

theorem length_resourcesBytes (build : Option UInt16) : (resourcesBytes build).length = 8 := by
  cases build <;> rfl

theorem length_tableBytes_le (length : Nat) (build : Option UInt16) :
    (tableBytes length build).length ≤ 80 := by
  have htext := length_headerBytes (show (textName ++ List.replicate 3 0).length = 8 from rfl)
  have hrsrc := length_headerBytes (show (rsrcName ++ List.replicate 3 0).length = 8 from rfl)
  cases build <;>
    simp only [tableBytes, List.length_append, htext, hrsrc, List.length_nil] <;> decide

section Places

variable {b : Bitness} {code filler : List UInt8} {build : Option UInt16}

theorem moduleFields_ordered (h : code.length + filler.length = 0x200) :
    (moduleFields b code filler build).Pairwise Field.Before := by
  have htable := length_tableBytes_le code.length build
  rw [← List.isChain_iff_pairwise]
  cases b <;>
    simp [moduleFields, baseField, Field.Before, Field.stop, length_littleEndian,
      length_resourcesBytes, headerSize, optionalSize] <;> lia

theorem moduleFields_fit (h : code.length + filler.length = 0x200) :
    ∀ f ∈ moduleFields b code filler build, f.stop ≤ 0x600 := by
  have htable := length_tableBytes_le code.length build
  have hversion : ((build.map versionResource).getD []).length ≤ 180 := by
    cases build <;> simp [length_versionResource]
  cases b <;>
    simp [moduleFields, baseField, Field.stop, length_littleEndian,
      length_resourcesBytes, headerSize, optionalSize, h] <;> lia

theorem size_moduleFile (h : code.length + filler.length = 0x200) :
    (moduleFile b code filler build).size = 0x600 :=
  size_layOut (moduleFields_fit h)

theorem moduleFile_holds (h : code.length + filler.length = 0x200) :
    ∀ f ∈ moduleFields b code filler build,
      Holds (moduleFile b code filler build) f.offset f.bytes :=
  fun _ hf => holds_layOut (moduleFields_fit h) (moduleFields_ordered h) hf

end Places

/-!
# Headers
-/

/-- A section header is read as it was written. -/
theorem Holds.sectionAt {file : ByteArray} {offset zeros : Nat} {name : List UInt8}
    {virtualSize virtualAddress rawSize rawPointer flags : UInt64}
    (h : Holds file offset (headerBytes (name ++ List.replicate zeros 0) virtualSize virtualAddress
      rawSize rawPointer flags))
    (hlength : (name ++ List.replicate zeros 0).length = 8) (hlast : name.getLast? ≠ some 0) :
    SectionAt file offset ⟨name, virtualSize.toNat % 256 ^ 4, virtualAddress.toNat % 256 ^ 4,
      rawSize.toNat % 256 ^ 4, rawPointer.toNat % 256 ^ 4⟩ := by
  unfold headerBytes at h
  have hpointer := h.append.1.append.1.append
  have hraw := hpointer.1.append
  have haddress := hraw.1.append
  have hsize := haddress.1.append
  simp only [List.length_append, length_littleEndian, hlength] at hpointer hraw haddress hsize
  exact {
    name := ⟨⟨zeros, hlength ▸ hsize.1.range_eq⟩, hlast⟩
    virtualSize := hsize.2.number?_eq
    virtualAddress := haddress.2.number?_eq
    rawSize := hraw.2.number?_eq
    rawPointer := hpointer.2.number?_eq }

def textHeader (length : Nat) : SectionHeader :=
  ⟨textName, length, 0x1000, 0x200, 0x200⟩

def rsrcHeader : SectionHeader :=
  ⟨rsrcName, 180, 0x2000, 0x200, 0x400⟩

def moduleSections (length : Nat) : Option UInt16 → List SectionHeader
  | some _ => [textHeader length, rsrcHeader]
  | none => [textHeader length]

def moduleHeaders (b : Bitness) (length : Nat) (build : Option UInt16) : Headers where
  bitness := b
  imageBase := (preferredBase b).toNat
  imageSize := 0x3000
  directories := 0x40 + headerSize b
  directoryCount := 16
  sections := moduleSections length build

section Modules

variable {b : Bitness} {length : Nat} {build : Option UInt16} {file : ByteArray}

theorem toNat_optionalSize (b : Bitness) :
    (UInt64.ofNat (optionalSize b)).toNat % 256 ^ 2 = optionalSize b := by
  cases b <;> rfl

theorem Holds.sectionsAt (hcount : Holds file 0x46 (littleEndian 2 (if build.isSome then 2 else 1)))
    (hoptional : Holds file 0x54 (littleEndian 2 (UInt64.ofNat (optionalSize b))))
    (htable : Holds file (0x58 + optionalSize b) (tableBytes length build))
    (hsize : file.size = 0x600) (hlength : length ≤ 0x200) :
    SectionsAt file 0x40 (moduleSections length build) := by
  have hwhole : (UInt64.ofNat length).toNat % 256 ^ 4 = length := by
    rw [UInt64.toNat_ofNat_of_lt' (by unfold UInt64.size; lia)]
    exact Nat.mod_eq_of_lt (by lia)
  have hfound := hoptional.number?_eq
  rw [toNat_optionalSize] at hfound
  have hcounted : u16? file 0x46 = some (moduleSections length build).length := by
    cases build <;> exact hcount.number?_eq
  have htwo : (moduleSections length build).length ≤ 2 := by
    cases build <;> simp [moduleSections]
  have hfits : optionalSize b ≤ 240 := by
    cases b <;> decide
  refine ⟨hcounted, by lia, _, hfound, by lia, ?_⟩
  have htext := htable.append.1.sectionAt rfl (by decide)
  rw [hwhole] at htext
  intro i s hs
  cases build with
  | none =>
      match i with
      | 0 =>
          cases hs
          exact htext
  | some n =>
      match i with
      | 0 =>
          cases hs
          exact htext
      | 1 =>
          cases hs
          exact htable.append.2.sectionAt rfl (by decide)

theorem toNat_magic (b : Bitness) : (UInt64.ofNat (magic b)).toNat % 256 ^ 2 = magic b := by
  cases b <;> rfl

theorem Holds.base?_eq (h : Holds file (baseField b).offset (baseField b).bytes) :
    base? file 0x40 b = some (preferredBase b).toNat := by
  cases b <;> exact h.number?_eq

end Modules

section Files

variable {b : Bitness} {code filler : List UInt8} {build : Option UInt16}

theorem headersAt_moduleFile (h : code.length + filler.length = 0x200) :
    HeadersAt b (moduleFile b code filler build) 0x40 (moduleHeaders b code.length build) := by
  have hsize := @size_moduleFile b code filler build h
  have hfields := @moduleFile_holds b code filler build h
  generalize moduleFile b code filler build = file at *
  simp only [moduleFields, List.forall_mem_cons] at hfields
  rcases hfields with ⟨hdos, hoffset, hmark, hoptional, hmagic, -, hbase, -, himage, hlisted, -,
    htable, -⟩
  have hlisted' : u32? file (0x40 + headerSize b - 4) = some 16 := by
    cases b <;> exact hlisted.number?_eq
  have hroom : headerSize b ≤ 136 := by
    cases b <;> decide
  exact {
    size := by lia
    dos := hdos.number?_eq
    offset := hoffset.number?_eq
    aligned := by decide
    near := by decide
    mark := hmark.append.1.append.1.number?_eq
    magic := by
      have hfound := hmagic.number?_eq
      rw [toNat_magic] at hfound
      exact hfound
    bitness := rfl
    base := hbase.base?_eq
    imageSize := himage.append.1.number?_eq
    headers := ⟨0x200, himage.append.2.number?_eq, by lia, by simp [moduleHeaders]⟩
    directories := rfl
    directoryCount := ⟨16, hlisted', rfl⟩
    fits := by
      show 0x40 + headerSize b + 8 * 16 ≤ file.size
      lia
    sections := hmark.append.2.sectionsAt hoptional.append.1 htable hsize (by lia) }

theorem firstText_moduleSections (length : Nat) (build : Option UInt16) :
    FirstText (moduleSections length build) (textHeader length) := by
  cases build with
  | none => exact ⟨[], [], rfl, rfl, by simp⟩
  | some n => exact ⟨[], [rsrcHeader], rfl, rfl, by simp⟩

/-- The file holds the code with what fills up its section. -/
theorem rawAt_moduleFile (h : code.length + filler.length = 0x200) :
    RawAt (moduleFile b code filler build) (textHeader code.length) (code ++ filler) := by
  have hsize := @size_moduleFile b code filler build h
  have hfields := @moduleFile_holds b code filler build h
  generalize moduleFile b code filler build = file at *
  have hraw : Holds file 0x200 (code ++ filler) := hfields ⟨0x200, _⟩ (by simp [moduleFields])
  have hrange := hraw.range_eq
  rw [List.length_append, h] at hrange
  exact {
    pointer_ne := by simp [textHeader]
    fits := by simp [textHeader, hsize]
    fits_field := by simp [textHeader]
    raw_eq := hrange.symm }

/-!
# Versions
-/

theorem build_moduleFile_none (h : code.length + filler.length = 0x200) :
    Image.build (moduleFile b code filler none) (moduleHeaders b code.length none) = .ok none := by
  have hfields := @moduleFile_holds b code filler none h
  generalize moduleFile b code filler none = file at *
  have haddress : Holds file (0x50 + headerSize b) (littleEndian 4 0 ++ littleEndian 4 0) :=
    hfields ⟨0x50 + headerSize b, _⟩ (by simp [moduleFields, resourcesBytes])
  have hnone : resourceArea? file (moduleHeaders b code.length none) = none := by
    rw [Option.eq_none_iff_forall_ne_some]
    intro r hr
    have hresources := resourceArea?_eq_some.mp hr
    have hplace : 0x40 + headerSize b + 16 = 0x50 + headerSize b := by lia
    have hread := hresources.address
    have hzero := haddress.append.1.number?_eq
    unfold moduleHeaders u32? at hread
    rw [hplace, hzero] at hread
    exact hresources.address_ne (Option.some.inj hread).symm
  unfold Image.build
  rw [hnone]
  rfl

end Files

section Resources

variable {file : ByteArray} {r : ResourceArea} {offset : Nat}

theorem Holds.directoryAt {number target : UInt64}
    (h : Holds file (r.start + offset) (directoryBytes number target)) (haligned : offset % 4 = 0)
    (hfits : offset + 24 ≤ r.size) :
    DirectoryAt file r offset [⟨number.toNat % 256 ^ 4, target.toNat % 256 ^ 4⟩] := by
  have htarget := h.append
  have hnumber := htarget.1.append
  have hnumbered := hnumber.1.append
  exact {
    aligned := haligned
    count := ⟨0, 1, hnumbered.1.append.2.number?_eq, hnumbered.2.number?_eq, rfl⟩
    fits := hfits
    entry := by
      intro i x hx
      match i with
      | 0 =>
          cases hx
          exact ⟨hnumber.2.number?_eq, htarget.2.number?_eq⟩ }

theorem Holds.word {words : List UInt16} (h : Holds file offset (wordBytes words)) {i : Nat}
    {w : UInt16} (hw : words[i]? = some w) : u16? file (offset + 2 * i) = some w.toNat := by
  induction words generalizing offset i with
  | nil => cases hw
  | cons first words ih =>
      have hsplit : Holds file offset (littleEndian 2 first.toUInt64 ++ wordBytes words) := h
      cases i with
      | zero =>
          cases hw
          have hread := hsplit.append.1.number?_eq
          have hwhole : w.toUInt64.toNat % 256 ^ 2 = w.toNat := Nat.mod_eq_of_lt w.toNat_lt
          rw [hwhole] at hread
          exact hread
      | succ i =>
          have hread := ih hsplit.append.2 hw
          rw [length_littleEndian] at hread
          rw [Nat.mul_succ, Nat.add_comm (2 * i), ← Nat.add_assoc]
          exact hread

end Resources

/-- The resources of a module that was laid out. -/
def moduleResources : ResourceArea :=
  ⟨0x400, 0x4B4, 0x2000⟩

theorem Holds.versionAt {file : ByteArray} {n : UInt16}
    (h : Holds file 0x400 (versionResource n)) :
    VersionAt file moduleResources ((versionWords n).map UInt16.toNat) := by
  have hwords := h.append
  have hentry := hwords.1.append
  have hlanguage := hentry.1.append
  have hname := hlanguage.1.append
  have hkinds := @Holds.directoryAt file moduleResources 0 16 0x80000018 hname.1 rfl (by decide)
  have hnames := @Holds.directoryAt file moduleResources 0x18 1 0x80000030 hname.2 rfl (by decide)
  have hlanguages :=
    @Holds.directoryAt file moduleResources 0x30 0x409 0x48 hlanguage.2 rfl (by decide)
  have hdata := hentry.2.append.1.append
  refine ⟨0x18, 0x30, _, [], ⟨_, _, hkinds, rfl, rfl⟩, ⟨_, _, hnames, rfl, rfl⟩, hlanguages,
    by decide, ?_⟩
  exact {
    aligned := rfl
    fits := by decide
    place := by
      refine ⟨0x2058, 92, 0x458, hdata.1.number?_eq, hdata.2.number?_eq, by decide, rfl, by decide,
        rfl, rfl, ?_⟩
      intro i w hw
      rw [List.getElem?_map] at hw
      rcases Option.map_eq_some_iff.mp hw with ⟨x, hx, rfl⟩
      exact hwords.2.word hx }

theorem blockWith_versionWords (n : UInt16) :
    BlockWith n.toNat ((versionWords n).map UInt16.toNat) := by
  refine ⟨92, 52, 0, versionKey.map UInt16.toNat, [0], (fixedPart n).map UInt16.toNat, [], ?_,
    by decide, by decide, by decide, by decide, rfl, rfl, Nat.le_refl 46, Nat.le_refl 46⟩
  simp [versionWords]

section Files

variable {b : Bitness} {code filler : List UInt8}

theorem resourcesAt_moduleFile {n : UInt16} (h : code.length + filler.length = 0x200) :
    ResourcesAt (moduleFile b code filler (some n)) (moduleHeaders b code.length (some n))
      moduleResources := by
  have hsize := @size_moduleFile b code filler (some n) h
  have hfields := @moduleFile_holds b code filler (some n) h
  generalize moduleFile b code filler (some n) = file at *
  have hresources : Holds file (0x50 + headerSize b)
      (littleEndian 4 0x2000 ++ littleEndian 4 180) :=
    hfields ⟨0x50 + headerSize b, _⟩ (by simp [moduleFields, resourcesBytes])
  have hplace : 0x40 + headerSize b + 16 = 0x50 + headerSize b := by lia
  have hlength : 0x40 + headerSize b + 20 = 0x50 + headerSize b + 4 := by lia
  -- The section of the code ends before the resources are loaded.
  have hsection : sectionAt? (moduleHeaders b code.length (some n)) 0x2000 = some rsrcHeader := by
    have htext : ¬ 0x2000 < add32 0x1000 (max code.length 0x200) := by
      unfold add32
      lia
    have hrsrc : 0x2000 < add32 0x2000 0x200 := by
      decide
    simp only [sectionAt?, moduleHeaders, moduleSections, textHeader, rsrcHeader]
    simp [htext, hrsrc]
  have hrange : rsrcHeader.rawRange? file = some (0x400, 0x600) :=
    (rawRange?_eq_some (by decide)).mpr ⟨rfl, rfl, hsize.ge, by decide⟩
  exact {
    listed := by simp [moduleHeaders]
    address := by
      unfold moduleHeaders
      rw [hplace]
      exact hresources.append.1.number?_eq
    address_ne := by decide
    place := by
      refine ⟨180, rsrcHeader, 0x400, 0x600, ?_, hsection, hrange, rfl, by decide, rfl⟩
      unfold moduleHeaders
      rw [hlength]
      exact hresources.append.2.number?_eq }

theorem build_moduleFile_some {n : UInt16} (h : code.length + filler.length = 0x200) :
    Image.build (moduleFile b code filler (some n)) (moduleHeaders b code.length (some n)) =
      .ok (some n.toNat) := by
  have hwritten : ⟨0x400, versionResource n⟩ ∈ moduleFields b code filler (some n) := by
    simp [moduleFields]
  have hversion := moduleFile_holds h _ hwritten
  exact build_eq_ok_some.mpr ⟨moduleResources, _, resourcesAt_moduleFile h, hversion.versionAt,
    blockWith_versionWords n⟩

theorem build_moduleFile (build : Option UInt16) (h : code.length + filler.length = 0x200) :
    FileReader.portable.build (moduleFile b code filler build)
      (moduleHeaders b code.length build) = .ok (build.map UInt16.toNat) := by
  unfold FileReader.portable
  dsimp only
  cases build with
  | none => exact build_moduleFile_none h
  | some n => exact build_moduleFile_some h

/-!
# Inspection
-/

/-- A module that was laid out says what it was made from. What fills up the section of its code is
not code. -/
theorem inspect_moduleFile (build : Option UInt16) (h : code.length + filler.length = 0x200) :
    inspect .portable (moduleFile b code filler build) =
      .ok ⟨b, build.map UInt16.toNat, moduleSection b code⟩ := by
  have hroom : headerSize .x64 + 0x40 ≤ (moduleFile b code filler build).size := by
    rw [size_moduleFile h]
    decide
  have hheaders : FileReader.portable.headers (moduleFile b code filler build) =
      .ok (moduleHeaders b code.length build) :=
    headers_eq_ok.mpr ⟨0x40, headersAt_moduleFile h, by lia⟩
  have hsize : (textHeader code.length).rawSize < 2 ^ 32 := by
    simp [textHeader]
  have hbytes := (bytes_eq_ok hsize).mpr (@rawAt_moduleFile b code filler build h)
  refine inspect_eq_ok.mpr ⟨moduleHeaders b code.length build, textHeader code.length, {
    headers := hheaders
    first := firstText_moduleSections code.length build
    code := ⟨_, hbytes, List.take_left.symm⟩
    build := build_moduleFile build h
    bitness := rfl
    image := ?_
    address := ?_ }⟩
  · cases b <;> rfl
  · cases b <;> rfl

end Files

end Image
end JumpHooks
