import JumpHooks.Image.Load
import JumpHooks.Proofs.Bytes.Numbers
import JumpHooks.Proofs.Image.Headers

/-!
# Laying out files

A file is laid out by writing fields into zeros. Fields that do not overlap are all found again,
and numbers are read from them as they were written.
-/

namespace JumpHooks
namespace Image

/-!
# Bytes in a file
-/

/-- These bytes stand at `offset` in the file. -/
def Holds (file : ByteArray) (offset : Nat) (bytes : List UInt8) : Prop :=
  ∀ k, k < bytes.length → file[offset + k]? = bytes[k]?

theorem Holds.append {file : ByteArray} {offset : Nat} {front back : List UInt8}
    (h : Holds file offset (front ++ back)) :
    Holds file offset front ∧ Holds file (offset + front.length) back := by
  constructor
  · intro k hk
    rw [h k (by rw [List.length_append]; lia), List.getElem?_append_left hk]
  · intro k hk
    have hplace := h (front.length + k) (by rw [List.length_append]; lia)
    rw [List.getElem?_append_right (Nat.le_add_right _ _), Nat.add_sub_cancel_left] at hplace
    rw [Nat.add_assoc]
    exact hplace

theorem Holds.range_eq {file : ByteArray} {offset : Nat} {bytes : List UInt8}
    (h : Holds file offset bytes) : range file offset (offset + bytes.length) = bytes := by
  apply List.ext_getElem?
  intro k
  rw [Image.range_eq, Nat.add_sub_cancel_left, List.getElem?_take]
  by_cases hk : k < bytes.length
  · rw [if_pos hk, List.getElem?_drop, Array.getElem?_toList]
    exact h k hk
  · rw [if_neg hk, List.getElem?_eq_none (Nat.not_lt.mp hk)]

/-- A number is read as it was written, cut to its bytes. -/
theorem Holds.number?_eq {file : ByteArray} {offset count : Nat} {v : UInt64}
    (h : Holds file offset (littleEndian count v)) :
    number? file offset count = some (v.toNat % 256 ^ count) := by
  induction count generalizing offset v with
  | zero => simp [number?, Nat.mod_one]
  | succ count ih =>
      have hlow : file[offset]? = some v.toUInt8 := h 0 (Nat.succ_pos _)
      have hrest : Holds file (offset + 1) (littleEndian count (v / 0x100)) :=
        (@Holds.append file offset [v.toUInt8] _ h).2
      have hdigits : v.toUInt8.toNat + 256 * ((v / 0x100).toNat % 256 ^ count) =
          v.toNat % 256 ^ (count + 1) := by
        rw [Nat.pow_succ', Nat.mod_mul]
        simp
      rw [number?, hlow]
      show (number? file (offset + 1) count).bind _ = _
      rw [ih hrest]
      exact congrArg some hdigits

/-!
# Fields
-/

structure Field where
  offset : Nat
  bytes : List UInt8

namespace Field

def stop (f : Field) : Nat :=
  f.offset + f.bytes.length

/-- The file with the field written over what stood there. -/
def write (file : List UInt8) (f : Field) : List UInt8 :=
  file.take f.offset ++ f.bytes ++ file.drop f.stop

/-- The first field ends before the second one begins. -/
def Before (f g : Field) : Prop :=
  f.stop ≤ g.offset

end Field

/-- A file of `size` bytes, zeros but for the fields. -/
def layOut (size : Nat) (fields : List Field) : ByteArray :=
  ⟨(fields.foldl Field.write (List.replicate size 0)).toArray⟩

namespace Field

variable {file : List UInt8} {f : Field}

theorem length_write (h : f.stop ≤ file.length) : (write file f).length = file.length := by
  unfold write
  rw [List.length_append, List.length_append, List.length_take, List.length_drop]
  unfold stop at h ⊢
  lia

theorem getElem?_write_of_lt {i : Nat} (h : f.stop ≤ file.length) (hi : i < f.offset) :
    (write file f)[i]? = file[i]? := by
  unfold stop at h
  unfold write
  rw [List.append_assoc, List.getElem?_append_left (by rw [List.length_take]; lia),
    List.getElem?_take_of_lt hi]

theorem getElem?_write_self {k : Nat} (h : f.stop ≤ file.length) (hk : k < f.bytes.length) :
    (write file f)[f.offset + k]? = f.bytes[k]? := by
  unfold stop at h
  have hfront : (file.take f.offset).length = f.offset := List.length_take_of_le (by lia)
  unfold write
  rw [List.append_assoc, List.getElem?_append_right (by lia), hfront, Nat.add_sub_cancel_left,
    List.getElem?_append_left hk]

theorem length_writes {fields : List Field} (h : ∀ f ∈ fields, f.stop ≤ file.length) :
    (fields.foldl write file).length = file.length := by
  induction fields generalizing file with
  | nil => rfl
  | cons f fields ih =>
      have hlength := length_write (h f List.mem_cons_self)
      rw [List.foldl_cons, ih, hlength]
      intro g hg
      rw [hlength]
      exact h g (List.mem_cons_of_mem f hg)

/-- Fields that are written behind a place leave it. -/
theorem getElem?_writes_of_lt {fields : List Field} {i : Nat}
    (h : ∀ f ∈ fields, f.stop ≤ file.length) (hi : ∀ f ∈ fields, i < f.offset) :
    (fields.foldl write file)[i]? = file[i]? := by
  induction fields generalizing file with
  | nil => rfl
  | cons f fields ih =>
      have hfits := h f List.mem_cons_self
      rw [List.foldl_cons, ih, getElem?_write_of_lt hfits (hi f List.mem_cons_self)]
      · intro g hg
        rw [length_write hfits]
        exact h g (List.mem_cons_of_mem f hg)
      · intro g hg
        exact hi g (List.mem_cons_of_mem f hg)

end Field

section Fields

variable {size : Nat} {fields : List Field}

theorem size_layOut (hfits : ∀ f ∈ fields, f.stop ≤ size) : (layOut size fields).size = size := by
  show (fields.foldl Field.write (List.replicate size 0)).toArray.size = size
  rw [List.size_toArray, Field.length_writes (by simpa using hfits), List.length_replicate]

/-- Every field is found where it was written. -/
theorem holds_layOut (hfits : ∀ f ∈ fields, f.stop ≤ size)
    (hordered : fields.Pairwise Field.Before) {f : Field} (hf : f ∈ fields) :
    Holds (layOut size fields) f.offset f.bytes := by
  rcases List.append_of_mem hf with ⟨before, after, rfl⟩
  have hlater := (List.pairwise_cons.mp (List.pairwise_append.mp hordered).2.1).1
  have hlength : (before.foldl Field.write (List.replicate size 0)).length = size := by
    rw [Field.length_writes, List.length_replicate]
    intro g hg
    rw [List.length_replicate]
    exact hfits g (List.mem_append_left _ hg)
  have hwritten : (Field.write (before.foldl Field.write (List.replicate size 0)) f).length =
      size := by
    rw [Field.length_write (by rw [hlength]; exact hfits f hf), hlength]
  intro k hk
  show ((before ++ f :: after).foldl Field.write (List.replicate size 0)).toArray[f.offset + k]? =
    _
  rw [List.getElem?_toArray, List.foldl_append, List.foldl_cons, Field.getElem?_writes_of_lt,
    Field.getElem?_write_self (by rw [hlength]; exact hfits f hf) hk]
  · intro g hg
    rw [hwritten]
    exact hfits g (by simp [hg])
  · intro g hg
    have hbefore : f.stop ≤ g.offset := hlater g hg
    unfold Field.stop at hbefore
    lia

end Fields

/-!
# The smallest modules

A module with nothing but its code, and a version resource if it has a build number.
-/

/-- A section header. The name takes eight bytes. -/
def headerBytes (name : List UInt8) (virtualSize virtualAddress rawSize rawPointer flags : UInt64) :
    List UInt8 :=
  name ++ littleEndian 4 virtualSize ++ littleEndian 4 virtualAddress ++ littleEndian 4 rawSize ++
    littleEndian 4 rawPointer ++ List.replicate 12 0 ++ littleEndian 4 flags

/-- A resource directory with one numbered entry. -/
def directoryBytes (number target : UInt64) : List UInt8 :=
  List.replicate 12 0 ++ littleEndian 2 0 ++ littleEndian 2 1 ++ littleEndian 4 number ++
    littleEndian 4 target

def wordBytes (words : List UInt16) : List UInt8 :=
  words.flatMap fun w => littleEndian 2 w.toUInt64

def versionKey : List UInt16 :=
  "VS_VERSION_INFO".toList.map fun c => UInt16.ofNat c.toNat

/-- The fixed part of a version: its mark, the version of the format, and the versions of the
file and of the product, which end in the build. -/
def fixedPart (n : UInt16) : List UInt16 :=
  [0x04BD, 0xFEEF, 0, 1, 1, 1, n, 0, 1, 1, n] ++ List.replicate 15 0

/-- A version block. One word behind the key brings the fixed part on an even word. -/
def versionWords (n : UInt16) : List UInt16 :=
  [92, 52, 0] ++ versionKey ++ [0] ++ [0] ++ fixedPart n

/-- Directories of kinds, names and languages, a data entry, and the version block. -/
def versionResource (n : UInt16) : List UInt8 :=
  directoryBytes 16 0x80000018 ++ directoryBytes 1 0x80000030 ++ directoryBytes 0x409 0x48 ++
    (littleEndian 4 0x2058 ++ littleEndian 4 92 ++ List.replicate 8 0) ++
      wordBytes (versionWords n)

def machine : Bitness → UInt64
  | .x64 => 0x8664
  | .x86 => 0x14C

/-- The bytes of the optional header, with sixteen data directories. -/
def optionalSize (b : Bitness) : Nat :=
  headerSize b - 24 + 128

def preferredBase : Bitness → UInt64
  | .x64 => 0x180000000
  | .x86 => 0x10000000

def baseField : Bitness → Field
  | .x64 => ⟨0x70, littleEndian 8 (preferredBase .x64)⟩
  | .x86 => ⟨0x74, littleEndian 4 (preferredBase .x86)⟩

def rsrcName : List UInt8 :=
  ".rsrc".toUTF8.data.toList

/-- The section headers, of the code and of the resources if there are any. -/
def tableBytes (length : Nat) (build : Option UInt16) : List UInt8 :=
  headerBytes (textName ++ List.replicate 3 0) (UInt64.ofNat length) 0x1000 0x200 0x200
      0x60000020 ++
    match build with
    | some _ => headerBytes (rsrcName ++ List.replicate 3 0) 180 0x2000 0x200 0x400 0x40000040
    | none => []

/-- The data directory of the resources. -/
def resourcesBytes : Option UInt16 → List UInt8
  | some _ => littleEndian 4 0x2000 ++ littleEndian 4 180
  | none => littleEndian 4 0 ++ littleEndian 4 0

def moduleFields (b : Bitness) (code filler : List UInt8) (build : Option UInt16) : List Field :=
  [⟨0, littleEndian 2 0x5A4D⟩,
    ⟨0x3C, littleEndian 4 0x40⟩,
    ⟨0x40, littleEndian 4 0x4550 ++ littleEndian 2 (machine b) ++
      littleEndian 2 (if build.isSome then 2 else 1)⟩,
    ⟨0x54, littleEndian 2 (UInt64.ofNat (optionalSize b)) ++ littleEndian 2 0x2022⟩,
    ⟨0x58, littleEndian 2 (UInt64.ofNat (magic b))⟩,
    ⟨0x68, littleEndian 4 0x1000 ++ littleEndian 4 0x1000⟩,
    baseField b,
    ⟨0x78, littleEndian 4 0x1000 ++ littleEndian 4 0x200⟩,
    ⟨0x90, littleEndian 4 0x3000 ++ littleEndian 4 0x200⟩,
    ⟨0x3C + headerSize b, littleEndian 4 16⟩,
    ⟨0x50 + headerSize b, resourcesBytes build⟩,
    ⟨0x58 + optionalSize b, tableBytes code.length build⟩,
    ⟨0x200, code ++ filler⟩,
    ⟨0x400, (build.map versionResource).getD []⟩]

/-- A module for this instruction set with this code. Behind the code, its section is filled up
in the file. -/
def moduleFile (b : Bitness) (code filler : List UInt8) (build : Option UInt16) : ByteArray :=
  layOut 0x600 (moduleFields b code filler build)

/-- Where the code of the module is loaded. -/
def moduleSection (b : Bitness) (code : List UInt8) : Section where
  image := ⟨preferredBase b, 0x3000⟩
  address := preferredBase b + 0x1000
  bytes := code

end Image
end JumpHooks
