import JumpHooks.Image.Load
import JumpHooks.Proofs.Code.Outcomes
import JumpHooks.Proofs.Image.Version

/-!
# What module files say of themselves

The instruction set, the build and the code of a module are those that its file holds in the
places of the format.
-/

namespace JumpHooks
namespace Image

open Outcome

theorem mapError_eq_ok {ε ε' α : Type} {x : Except ε α} {f : ε → ε'} {a : α} :
    x.mapError f = .ok a ↔ x = .ok a := by
  cases x <;> simp [Except.mapError]

/-!
# Code sections
-/

/-- The section is the first one with the name of code sections. -/
def FirstText (sections : List SectionHeader) (text : SectionHeader) : Prop :=
  ∃ before after, sections = before ++ text :: after ∧ text.name = textName ∧
    ∀ s ∈ before, s.name ≠ textName

theorem find?_text_eq_some {sections : List SectionHeader} {text : SectionHeader} :
    sections.find? (fun s => s.name == textName) = some text ↔ FirstText sections text := by
  rw [List.find?_eq_some_iff_append]
  unfold FirstText
  constructor
  · rintro ⟨hname, before, after, hsplit, hbefore⟩
    refine ⟨before, after, hsplit, eq_of_beq hname, ?_⟩
    intro s hs
    simpa using hbefore s hs
  · rintro ⟨before, after, hsplit, hname, hbefore⟩
    refine ⟨beq_iff_eq.mpr hname, before, after, hsplit, ?_⟩
    intro s hs
    simpa using hbefore s hs

/-- Fields of four bytes do not wrap around when a range that is in the file is computed. -/
theorem rawRange?_eq_some {file : ByteArray} {s : SectionHeader} (hsize : s.rawSize < 2 ^ 32)
    {start stop : Nat} :
    s.rawRange? file = some (start, stop) ↔
      start = s.rawPointer ∧ stop = s.rawPointer + s.rawSize ∧ stop ≤ file.size ∧
        stop < 2 ^ 32 := by
  unfold SectionHeader.rawRange? add32
  dsimp only
  split
  · rename_i h
    rw [Option.some.injEq, Prod.mk.injEq]
    lia
  · rename_i h
    constructor
    · intro hnone
      cases hnone
    · intro hrange
      lia

theorem take_range (file : ByteArray) (start length count : Nat) :
    (range file start (start + length)).take count =
      range file start (start + min length count) := by
  rw [range_eq, range_eq, List.take_take, Nat.add_sub_cancel_left, Nat.add_sub_cancel_left,
    Nat.min_comm]

/-- The file holds `raw` for the section. -/
structure RawAt (file : ByteArray) (s : SectionHeader) (raw : List UInt8) : Prop where
  pointer_ne : s.rawPointer ≠ 0
  fits : s.rawPointer + s.rawSize ≤ file.size
  fits_field : s.rawPointer + s.rawSize < 2 ^ 32
  raw_eq : raw = range file s.rawPointer (s.rawPointer + s.rawSize)

theorem bytes_eq_ok {file : ByteArray} {s : SectionHeader} (hsize : s.rawSize < 2 ^ 32)
    {raw : List UInt8} : FileReader.portable.bytes file s = .ok raw ↔ RawAt file s raw := by
  unfold FileReader.portable SectionHeader.bytes
  dsimp only
  constructor
  · intro hraw
    split at hraw
    · cases hraw
    · rename_i hne
      split at hraw
      · cases hraw
      · rename_i start stop hrange
        rcases (rawRange?_eq_some hsize).mp hrange with ⟨rfl, rfl, hfits, hfield⟩
        cases hraw
        exact ⟨hne, hfits, hfield, rfl⟩
  · intro h
    have hrange := (rawRange?_eq_some hsize).mpr ⟨rfl, rfl, h.fits, h.fits_field⟩
    rw [if_neg h.pointer_ne, hrange, h.raw_eq]

/-- Every section of the headers is described by fields of the file. -/
theorem HeadersAt.sectionAt {b : Bitness} {file : ByteArray} {e : Nat} {h : Headers}
    (he : HeadersAt b file e h) {s : SectionHeader} (hs : s ∈ h.sections) :
    ∃ offset, SectionAt file offset s := by
  rcases List.mem_iff_getElem?.mp hs with ⟨i, hi⟩
  rcases he.sections.table with ⟨optionalSize, _, _, hsections⟩
  exact ⟨_, hsections i s hi⟩

/-!
# Readers that follow the format
-/

/-- What is read stands in the file, in the places of the format. Nothing is asked of files that
are refused. -/
structure FileReader.FollowsFormat (r : FileReader) : Prop where
  headers : ∀ {b file h}, r.headersOf b file = .ok h → ∃ e, HeadersAt b file e h
  bytes : ∀ {b file e h}, HeadersAt b file e h → ∀ {s raw}, s ∈ h.sections →
    r.bytes file s = .ok raw →
      s.rawPointer + s.rawSize ≤ file.size ∧
        raw = range file s.rawPointer (s.rawPointer + s.rawSize)
  build : ∀ {b file e h}, HeadersAt b file e h → ∀ {n}, r.build file h = .ok (some n) →
    ReportsBuild file h n

theorem FileReader.portable_followsFormat : portable.FollowsFormat where
  headers := headersOf_eq_ok.mp
  bytes := by
    intro b file e h he s raw hs hraw
    rcases he.sectionAt hs with ⟨offset, hat⟩
    have hheld := (bytes_eq_ok (number?_lt hat.rawSize)).mp hraw
    exact ⟨hheld.fits, hheld.raw_eq⟩
  build := fun _ => build_eq_ok_some.mp

theorem FileReader.FollowsFormat.headersAt {r : FileReader} (hr : r.FollowsFormat)
    {file : ByteArray} {h : Headers} (hread : r.headers file = .ok h) :
    ∃ e, HeadersAt h.bitness file e h := by
  have hone : ∀ {b}, r.headersOf b file = .ok h → ∃ e, HeadersAt h.bitness file e h := by
    intro b hb
    rcases hr.headers hb with ⟨e, he⟩
    rw [← he.bitness] at he
    exact ⟨e, he⟩
  unfold FileReader.headers at hread
  split at hread
  · exact hone hread
  · exact hone hread

/-!
# Inspection
-/

/-- The reader finds these headers and this code section in the file, and `info` is what they
say. -/
structure Says (r : FileReader) (file : ByteArray) (info : Info) (h : Headers)
    (text : SectionHeader) : Prop where
  headers : r.headers file = .ok h
  first : FirstText h.sections text
  code : ∃ raw, r.bytes file text = .ok raw ∧ info.code.bytes = raw.take text.virtualSize
  build : r.build file h = .ok info.build
  bitness : info.bitness = h.bitness
  image : info.code.image = ⟨UInt64.ofNat h.imageBase, UInt64.ofNat h.imageSize⟩
  address : info.code.address = UInt64.ofNat (h.imageBase + text.virtualAddress)

theorem FirstText.mem {sections : List SectionHeader} {text : SectionHeader}
    (h : FirstText sections text) : text ∈ sections := by
  rcases h with ⟨before, after, rfl, _, _⟩
  simp

theorem inspect_eq_ok {r : FileReader} {file : ByteArray} {info : Info} :
    inspect r file = .ok info ↔ ∃ h text, Says r file info h text := by
  unfold inspect
  simp only [bind_eq_ok, mapError_eq_ok]
  constructor
  · rintro ⟨h, hheaders, hinspect⟩
    split at hinspect
    · cases hinspect
    · rename_i text htext
      simp only [bind_eq_ok, mapError_eq_ok] at hinspect
      rcases hinspect with ⟨raw, hraw, reported, hbuild, hinfo⟩
      cases hinfo
      exact ⟨h, text, {
        headers := hheaders
        first := find?_text_eq_some.mp htext
        code := ⟨raw, hraw, rfl⟩
        build := hbuild
        bitness := rfl
        image := rfl
        address := rfl }⟩
  · rintro ⟨h, text, hread⟩
    rcases hread.code with ⟨raw, hraw, hcode⟩
    refine ⟨h, hread.headers, ?_⟩
    rw [find?_text_eq_some.mpr hread.first]
    simp only [bind_eq_ok, mapError_eq_ok]
    refine ⟨raw, hraw, _, hread.build, ?_⟩
    rw [← hcode, ← hread.image, ← hread.address, ← hread.bitness]
    rfl

end Image
end JumpHooks
