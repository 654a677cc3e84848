import JumpHooks.Image.Reader
import JumpHooks.Proofs.Outcome
import Mathlib.Algebra.Order.Ring.Nat
import Mathlib.Data.List.DropRight

/-!
# Headers in a file

Which files have headers, and what these say, told by the places of the fields. Reading succeeds
on exactly these files.
-/

namespace JumpHooks
namespace Image

open Outcome

/-!
# Fields
-/

theorem number?_lt {file : ByteArray} {offset count n : Nat}
    (h : number? file offset count = some n) : n < 256 ^ count := by
  induction count generalizing offset n with
  | zero =>
      cases h
      exact Nat.one_pos
  | succ count ih =>
      rcases Option.bind_eq_some_iff.mp h with ⟨low, _, hrest⟩
      rcases Option.bind_eq_some_iff.mp hrest with ⟨high, hhigh, hn⟩
      cases hn
      have hlow := low.toNat_lt
      have hlt := ih hhigh
      rw [Nat.pow_succ]
      lia

theorem range_eq (file : ByteArray) (start stop : Nat) :
    range file start stop = (file.data.toList.drop start).take (stop - start) := by
  rw [range, ByteArray.data_extract, Array.toList_extract, List.extract_eq_take_drop]

theorem orBounds_eq_ok {α : Type} {o : Option α} {a : α} : orBounds o = .ok a ↔ o = some a := by
  cases o <;> simp [orBounds]

theorem require_eq_ok {condition : Bool} {fault : Fault} {u : Unit} :
    require condition fault = .ok u ↔ condition = true := by
  cases condition <;> simp [require]

/-!
# Sections
-/

/-- The name does not end in a zero, and fills the rest of its field with zeros. -/
structure NameAt (file : ByteArray) (offset : Nat) (name : List UInt8) : Prop where
  filled : ∃ zeros, range file offset (offset + 8) = name ++ List.replicate zeros 0
  last : name.getLast? ≠ some 0

/-- The header of the section stands at `offset`. -/
structure SectionAt (file : ByteArray) (offset : Nat) (s : SectionHeader) : Prop where
  name : NameAt file offset s.name
  virtualSize : u32? file (offset + 8) = some s.virtualSize
  virtualAddress : u32? file (offset + 12) = some s.virtualAddress
  rawSize : u32? file (offset + 16) = some s.rawSize
  rawPointer : u32? file (offset + 20) = some s.rawPointer

theorem withoutZeros_eq_iff {field name : List UInt8} :
    withoutZeros field = name ↔
      (∃ zeros, field = name ++ List.replicate zeros 0) ∧ name.getLast? ≠ some 0 := by
  unfold withoutZeros
  constructor
  · rintro rfl
    -- What is dropped from the end of the field holds zeros only.
    have hzeros : field.reverse.takeWhile (· == 0) =
        List.replicate (field.reverse.takeWhile (· == 0)).length 0 := by
      apply List.eq_replicate_of_mem
      intro x hx
      have hzero := List.mem_takeWhile_imp hx
      exact eq_of_beq hzero
    constructor
    · have hsplit := congrArg List.reverse
        (List.takeWhile_append_dropWhile (p := (· == 0)) (l := field.reverse))
      rw [List.reverse_append, List.reverse_reverse, hzeros, List.reverse_replicate] at hsplit
      exact ⟨_, hsplit.symm⟩
    · rw [List.getLast?_reverse]
      intro hhead
      have hfirst := List.head?_dropWhile_not (· == 0) field.reverse
      rw [hhead] at hfirst
      cases hfirst
  · rintro ⟨⟨zeros, rfl⟩, hlast⟩
    rw [List.reverse_append, List.reverse_replicate, List.dropWhile_append_of_pos (by simp)]
    rw [← List.head?_reverse] at hlast
    cases hname : name.reverse with
    | nil => simpa using hname.symm
    | cons x rest =>
        rw [hname] at hlast
        have hx : (x == 0) = false := by simpa using hlast
        rw [List.dropWhile_cons_of_neg (by simp [hx]), ← hname, List.reverse_reverse]

theorem sectionHeader_eq_ok {file : ByteArray} {offset : Nat} {s : SectionHeader} :
    sectionHeader file offset = .ok s ↔ SectionAt file offset s := by
  unfold sectionHeader
  simp only [bind_eq_ok, orBounds_eq_ok]
  constructor
  · rintro ⟨virtualSize, hsize, virtualAddress, haddress, rawSize, hraw, rawPointer, hpointer, hs⟩
    cases hs
    rcases withoutZeros_eq_iff.mp rfl with ⟨hfilled, hlast⟩
    exact ⟨⟨hfilled, hlast⟩, hsize, haddress, hraw, hpointer⟩
  · intro h
    have hname := withoutZeros_eq_iff.mpr ⟨h.name.filled, h.name.last⟩
    refine ⟨_, h.virtualSize, _, h.virtualAddress, _, h.rawSize, _, h.rawPointer, ?_⟩
    rw [hname]
    rfl

/-!
# Headers
-/

/-- The field with the preferred address of the image. -/
def base? (file : ByteArray) (e : Nat) : Bitness → Option Nat
  | .x64 => u64? file (e + 48)
  | .x86 => u32? file (e + 52)

/-- The section headers stand one after the other behind the optional header. -/
structure SectionsAt (file : ByteArray) (e : Nat) (sections : List SectionHeader) : Prop where
  count : u16? file (e + 6) = some sections.length
  count_le : sections.length ≤ 96
  table : ∃ optionalSize, u16? file (e + 20) = some optionalSize ∧
    e + 24 + optionalSize + 40 * sections.length ≤ file.size ∧
      ∀ i s, sections[i]? = some s → SectionAt file (e + 24 + optionalSize + 40 * i) s

/-- The file has headers for this instruction set at `e`, and they say `h`. -/
structure HeadersAt (b : Bitness) (file : ByteArray) (e : Nat) (h : Headers) : Prop where
  size : 64 ≤ file.size
  dos : u16? file 0 = some 0x5A4D
  offset : u32? file 0x3C = some e
  aligned : e % 4 = 0
  near : e ≤ 0x01000000
  mark : u32? file e = some 0x4550
  magic : u16? file (e + 24) = some (magic b)
  bitness : h.bitness = b
  base : base? file e b = some h.imageBase
  imageSize : u32? file (e + 80) = some h.imageSize
  headers : ∃ n, u32? file (e + 84) = some n ∧ n ≤ file.size ∧ n ≤ h.imageSize
  directories : h.directories = e + headerSize b
  directoryCount : ∃ n, u32? file (e + headerSize b - 4) = some n ∧ h.directoryCount = min n 16
  fits : e + headerSize b + 8 * h.directoryCount ≤ file.size
  sections : SectionsAt file e h.sections

theorem headerOffset_eq_ok {file : ByteArray} {e : Nat} :
    headerOffset file = .ok e ↔
      64 ≤ file.size ∧ u16? file 0 = some 0x5A4D ∧ u32? file 0x3C = some e ∧ e % 4 = 0 ∧
        e ≤ 0x01000000 := by
  unfold headerOffset
  simp only [bind_eq_ok, orBounds_eq_ok, require_eq_ok, exists_const, decide_eq_true_eq,
    beq_iff_eq]
  constructor
  · rintro ⟨hsize, mark, hmark, rfl, e', he, haligned, hnear, hdone⟩
    cases hdone
    exact ⟨hsize, hmark, he, haligned, hnear⟩
  · rintro ⟨hsize, hmark, he, haligned, hnear⟩
    exact ⟨hsize, _, hmark, rfl, e, he, haligned, hnear, rfl⟩

theorem checkHeaders_eq_ok {b : Bitness} {file : ByteArray} {e : Nat} {u : Unit} :
    checkHeaders b file e = .ok u ↔
      e + headerSize b ≤ file.size ∧ u32? file e = some 0x4550 ∧
        u16? file (e + 24) = some (magic b) ∧
          ∃ n imageSize, u32? file (e + 84) = some n ∧ n ≤ file.size ∧
            u32? file (e + 80) = some imageSize ∧ n ≤ imageSize := by
  unfold checkHeaders
  simp only [bind_eq_ok, orBounds_eq_ok, require_eq_ok, exists_const, decide_eq_true_eq,
    beq_iff_eq, Bool.and_eq_true, Bool.or_eq_true]
  constructor
  · rintro ⟨hsize, mark, hmark, found, hfound, ⟨rfl, _⟩, n, hn, hle, imageSize, himage, hle',
      rfl⟩
    exact ⟨hsize, hmark, hfound, n, imageSize, hn, hle, himage, hle'⟩
  · rintro ⟨hsize, hmark, hfound, n, imageSize, hn, hle, himage, hle'⟩
    refine ⟨hsize, _, hmark, _, hfound, ⟨rfl, ?_⟩, n, hn, hle, imageSize, himage, hle', rfl⟩
    cases b
    · exact .inl rfl
    · exact .inr rfl

/-- The section headers are read from the table that the header places. -/
theorem sections_eq_ok {file : ByteArray} {table count : Nat} {sections : List SectionHeader} :
    ((List.range count).mapM fun i => sectionHeader file (table + 40 * i)) = .ok sections ↔
      sections.length = count ∧
        ∀ i s, sections[i]? = some s → SectionAt file (table + 40 * i) s := by
  rw [mapM_eq_ok, forall₂_range_iff]
  simp only [sectionHeader_eq_ok]

theorem imageBase_eq_ok {b : Bitness} {file : ByteArray} {e n : Nat} :
    imageBase b file e = .ok n ↔ base? file e b = some n := by
  cases b <;> exact orBounds_eq_ok

theorem headersOf_eq_ok {b : Bitness} {file : ByteArray} {h : Headers} :
    headersOf b file = .ok h ↔ ∃ e, HeadersAt b file e h := by
  unfold headersOf
  simp only [bind_eq_ok, orBounds_eq_ok, require_eq_ok, exists_const, decide_eq_true_eq,
    headerOffset_eq_ok, checkHeaders_eq_ok, sections_eq_ok, imageBase_eq_ok]
  constructor
  · rintro ⟨e, ⟨hsize, hdos, hoffset, haligned, hnear⟩, ⟨_, hmark, hmagic, n, size, hn, hle,
      hsize', hle'⟩, listed, hlisted, hfits, count, hcount, hcount', optionalSize, hoptional,
      htable, imageSize, himage, base, hbase, sections, ⟨hlength, hsections⟩, hdone⟩
    cases hdone
    rw [himage] at hsize'
    cases hsize'
    cases hlength
    exact ⟨e, {
      size := hsize
      dos := hdos
      offset := hoffset
      aligned := haligned
      near := hnear
      mark := hmark
      magic := hmagic
      bitness := rfl
      base := hbase
      imageSize := himage
      headers := ⟨n, hn, hle, hle'⟩
      directories := rfl
      directoryCount := ⟨listed, hlisted, rfl⟩
      fits := hfits
      sections := ⟨hcount, hcount', optionalSize, hoptional, htable, hsections⟩ }⟩
  · rintro ⟨e, h⟩
    have hfits := h.fits
    rcases h.headers with ⟨n, hn, hle, hle'⟩
    rcases h.directoryCount with ⟨listed, hlisted, hcount⟩
    rcases h.sections.table with ⟨optionalSize, hoptional, htable, hsections⟩
    refine ⟨e, ⟨h.size, h.dos, h.offset, h.aligned, h.near⟩,
      ⟨by lia, h.mark, h.magic, n, _, hn, hle, h.imageSize, hle'⟩, listed, hlisted,
      hcount ▸ hfits, _, h.sections.count, h.sections.count_le, optionalSize, hoptional, htable,
      _, h.imageSize, _, h.base, _, ⟨rfl, hsections⟩, ?_⟩
    rw [← h.bitness, ← hcount, h.bitness, ← h.directories, ← h.bitness]
    rfl

/-- Headers of the other kind are told by their mark, if there is room for those that were
expected. -/
theorem headersOf_x64_of_x86 {file : ByteArray} {e : Nat} {h : Headers}
    (hx86 : HeadersAt .x86 file e h) :
    headersOf .x64 file =
      .error (if e + headerSize .x64 ≤ file.size then .otherMagic else .bounds) := by
  have hoffset : headerOffset file = .ok e :=
    headerOffset_eq_ok.mpr ⟨hx86.size, hx86.dos, hx86.offset, hx86.aligned, hx86.near⟩
  rcases hx86.headers with ⟨n, hn, hle, hle'⟩
  have hcheck : checkHeaders .x64 file e =
      .error (if e + headerSize .x64 ≤ file.size then .otherMagic else .bounds) := by
    unfold checkHeaders
    by_cases hroom : e + headerSize .x64 ≤ file.size
    · rw [if_pos hroom, hx86.mark, hx86.magic, hn, hx86.imageSize]
      simp [require, orBounds, hroom, hle, hle', magic, bind, Except.bind]
    · rw [if_neg hroom]
      simp [require, hroom, bind, Except.bind]
  unfold headersOf
  rw [hoffset]
  show (checkHeaders .x64 file e >>= _) = _
  rw [hcheck]
  rfl

/-- The headers of a file are read, for whichever instruction set, unless the file ends where
those of a 64-bit module could not. -/
theorem headers_eq_ok {file : ByteArray} {h : Headers} :
    FileReader.portable.headers file = .ok h ↔
      ∃ e, HeadersAt h.bitness file e h ∧ e + headerSize .x64 ≤ file.size := by
  unfold FileReader.headers FileReader.portable
  dsimp only
  constructor
  · intro hok
    cases hx64 : headersOf .x64 file with
    | ok h' =>
        rw [hx64] at hok
        cases hok
        rcases headersOf_eq_ok.mp hx64 with ⟨e, he⟩
        have hfits := he.fits
        refine ⟨e, ?_, by lia⟩
        rw [he.bitness]
        exact he
    | error fault =>
        rw [hx64] at hok
        cases fault with
        | otherMagic =>
            rcases headersOf_eq_ok.mp hok with ⟨e, he⟩
            rw [headersOf_x64_of_x86 he] at hx64
            refine ⟨e, ?_, ?_⟩
            · rw [he.bitness]
              exact he
            · by_contra hroom
              rw [if_neg hroom] at hx64
              cases hx64
        | _ => cases hok
  · rintro ⟨e, he, hroom⟩
    cases hb : h.bitness with
    | x64 =>
        rw [hb] at he
        rw [headersOf_eq_ok.mpr ⟨e, he⟩]
    | x86 =>
        rw [hb] at he
        rw [headersOf_x64_of_x86 he, if_pos hroom]
        exact headersOf_eq_ok.mpr ⟨e, he⟩

end Image
end JumpHooks
