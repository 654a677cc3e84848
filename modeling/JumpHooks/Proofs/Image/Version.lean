import JumpHooks.Image.Version
import JumpHooks.Proofs.Image.Headers
import Mathlib.Data.Option.Basic

/-!
# The build number in a file

Which files report a build number, told by what stands in them: the resource directory with its
three levels, the data entry, and the block with the key and the fixed part of a version. The
build number is read from exactly these files.
-/

namespace JumpHooks
namespace Image

open Outcome

/-!
# Resources
-/

/-- The resources of the module stand in this part of the file. -/
structure ResourcesAt (file : ByteArray) (h : Headers) (r : ResourceArea) : Prop where
  listed : 2 < h.directoryCount
  address : u32? file (h.directories + 16) = some r.address
  address_ne : r.address ≠ 0
  place : ∃ length s start stop, u32? file (h.directories + 20) = some length ∧
    sectionAt? h r.address = some s ∧ s.rawRange? file = some (start, stop) ∧
      r.start = start + (r.address - s.virtualAddress) ∧ r.start ≤ stop ∧
        r.stop = min stop (r.start + length)

theorem resourceArea?_eq_some {file : ByteArray} {h : Headers} {r : ResourceArea} :
    resourceArea? file h = some r ↔ ResourcesAt file h r := by
  unfold resourceArea?
  simp only [Option.bind_eq_bind, Option.bind_eq_some_iff, Option.guard_eq_some', exists_const]
  constructor
  · rintro ⟨hlisted, address, haddress, length, hlength, hne, s, hs, ⟨start, stop⟩, hrange,
      hle, hdone⟩
    cases hdone
    exact ⟨hlisted, haddress, hne, length, s, start, stop, hlength, hs, hrange, rfl, hle, rfl⟩
  · rintro ⟨hlisted, haddress, hne, length, s, start, stop, hlength, hs, hrange, hstart, hle,
      hstop⟩
    refine ⟨hlisted, _, haddress, length, hlength, hne, s, hs, (start, stop), hrange, ?_, ?_⟩
    · rw [← hstart]
      exact hle
    · rw [← hstart, ← hstop]
      rfl

/-- A directory with these entries stands at `offset`. -/
structure DirectoryAt (file : ByteArray) (r : ResourceArea) (offset : Nat)
    (entries : List ResourceEntry) : Prop where
  aligned : offset % 4 = 0
  count : ∃ named numbered, u16? file (r.start + offset + 12) = some named ∧
    u16? file (r.start + offset + 14) = some numbered ∧ entries.length = named + numbered
  fits : offset + 16 + 8 * entries.length ≤ r.size
  entry : ∀ i x, entries[i]? = some x →
    u32? file (r.start + offset + 16 + 8 * i) = some x.name ∧
      u32? file (r.start + offset + 16 + 8 * i + 4) = some x.offset

theorem directoryEntries?_eq_some {file : ByteArray} {r : ResourceArea} {offset : Nat}
    {entries : List ResourceEntry} :
    directoryEntries? file r offset = some entries ↔ DirectoryAt file r offset entries := by
  unfold directoryEntries?
  simp only [Option.bind_eq_bind, Option.bind_eq_some_iff, Option.guard_eq_some', exists_const,
    mapM_eq_some, forall₂_range_iff, ResourceArea.holds, Bool.and_eq_true, beq_iff_eq,
    decide_eq_true_eq]
  constructor
  · rintro ⟨⟨haligned, _⟩, named, hnamed, numbered, hnumbered, ⟨_, hfits⟩, hlength, hentries⟩
    refine ⟨haligned, ⟨named, numbered, hnamed, hnumbered, hlength⟩, by lia, ?_⟩
    intro i x hx
    rcases hentries i x hx with ⟨name, hname, target, htarget, hdone⟩
    cases hdone
    exact ⟨hname, htarget⟩
  · intro h
    have hfits := h.fits
    rcases h.count with ⟨named, numbered, hnamed, hnumbered, hlength⟩
    refine ⟨⟨h.aligned, by lia⟩, named, hnamed, numbered, hnumbered, ⟨h.aligned, by lia⟩,
      hlength, ?_⟩
    intro i x hx
    rcases h.entry i x hx with ⟨hname, htarget⟩
    exact ⟨_, hname, _, htarget, rfl⟩

/-- The directory at `offset` leads to another one under this number. -/
def LeadsTo (file : ByteArray) (r : ResourceArea) (offset number target : Nat) : Prop :=
  ∃ entries x, DirectoryAt file r offset entries ∧
    entries.find? (fun y => y.name == number) = some x ∧ x.offset = ResourceEntry.flag + target

theorem subdirectory?_eq_some {file : ByteArray} {r : ResourceArea}
    {offset number target : Nat} :
    subdirectory? file r offset number = some target ↔ LeadsTo file r offset number target := by
  have hdirectory : ∀ x : ResourceEntry,
      x.directory? = some target ↔ x.offset = ResourceEntry.flag + target := by
    intro x
    unfold ResourceEntry.directory?
    split <;> simp <;> lia
  unfold subdirectory? LeadsTo
  simp only [Option.bind_eq_bind, Option.bind_eq_some_iff, directoryEntries?_eq_some, hdirectory]
  constructor
  · rintro ⟨entries, hentries, x, hx, htarget⟩
    exact ⟨entries, x, hentries, hx, htarget⟩
  · rintro ⟨entries, x, hentries, hx, htarget⟩
    exact ⟨entries, hentries, x, hx, htarget⟩

/-- The data entry at `entry` places these 16-bit words. -/
structure WordsAt (file : ByteArray) (r : ResourceArea) (entry : Nat) (words : List Nat) :
    Prop where
  aligned : entry % 4 = 0
  fits : entry + 16 ≤ r.size
  place : ∃ address length start, u32? file (r.start + entry) = some address ∧
    u32? file (r.start + entry + 4) = some length ∧ r.address ≤ address ∧
      start = r.start + (address - r.address) ∧ start + length ≤ r.stop ∧ start % 4 = 0 ∧
        words.length = length / 2 ∧
          ∀ i w, words[i]? = some w → u16? file (start + 2 * i) = some w

/-- The version resource, which is kind 16, name 1, in the first language, has these words. -/
def VersionAt (file : ByteArray) (r : ResourceArea) (words : List Nat) : Prop :=
  ∃ kind name x rest, LeadsTo file r 0 16 kind ∧ LeadsTo file r kind 1 name ∧
    DirectoryAt file r name (x :: rest) ∧ x.offset < ResourceEntry.flag ∧
      WordsAt file r x.offset words

theorem versionWords?_eq_some {file : ByteArray} {r : ResourceArea} {words : List Nat} :
    versionWords? file r = some words ↔ VersionAt file r words := by
  have hdata : ∀ (x : ResourceEntry) (entry : Nat),
      x.data? = some entry ↔ x.offset < ResourceEntry.flag ∧ x.offset = entry := by
    intro x entry
    unfold ResourceEntry.data?
    split <;> simp <;> lia
  unfold versionWords?
  simp only [Option.bind_eq_bind, Option.bind_eq_some_iff, Option.guard_eq_some', exists_const,
    mapM_eq_some, forall₂_range_iff, ResourceArea.holds, Bool.and_eq_true, beq_iff_eq,
    decide_eq_true_eq, subdirectory?_eq_some, directoryEntries?_eq_some, hdata]
  constructor
  · rintro ⟨kind, hkind, name, hname, entries, hentries, x, hx, entry, ⟨hlt, rfl⟩,
      ⟨haligned, hfits⟩, address, haddress, length, hlength, hle, hend, hwhole, hwords⟩
    rcases List.head?_eq_some_iff.mp hx with ⟨rest, rfl⟩
    exact ⟨kind, name, x, rest, hkind, hname, hentries, hlt, haligned, hfits, address, length, _,
      haddress, hlength, hle, rfl, hend, hwhole, hwords⟩
  · rintro ⟨kind, name, x, rest, hkind, hname, hentries, hlt, haligned, hfits, address, length, _,
      haddress, hlength, hle, rfl, hend, hwhole, hwords⟩
    exact ⟨kind, hkind, name, hname, x :: rest, hentries, x, rfl, _, ⟨hlt, rfl⟩,
      ⟨haligned, hfits⟩, address, haddress, length, hlength, hle, hend, hwhole, hwords⟩

/-!
# Version blocks
-/

/-- The words begin with a version block: its length and that of its value in bytes, a type, a
key that a zero ends, and on an even word the fixed part of a version, which has the build in its
eleventh word. -/
def BlockWith (build : Nat) (words : List Nat) : Prop :=
  ∃ listed valueLength type key padding value rest,
    words = [listed, valueLength, type] ++ key ++ [0] ++ padding ++ value ++ rest ∧
      0 ∉ key ∧ padding.length ≤ 1 ∧ (key.length + padding.length) % 2 = 0 ∧
        valueLength / 2 = fixedWords ∧ value.length = fixedWords ∧ value[10]? = some build ∧
          key.length + padding.length + value.length + 4 ≤ max 4 (listed / 2) ∧
            max 4 (listed / 2) ≤ words.length

theorem ofWords?_eq_some {words : List Nat} {b : VersionBlock} :
    VersionBlock.ofWords? words = some b ↔
      ∃ listed valueLength keyLength, words[0]? = some listed ∧ words[1]? = some valueLength ∧
        4 ≤ words.length ∧ max 4 (listed / 2) ≤ words.length ∧
          ((words.take (max 4 (listed / 2))).drop 3).findIdx? (· == 0) = some keyLength ∧
            b = ⟨words.take (max 4 (listed / 2)), 4 + 2 * ((keyLength + 1) / 2),
              valueLength / 2⟩ := by
  unfold VersionBlock.ofWords?
  simp only [Option.bind_eq_bind, Option.bind_eq_some_iff, Option.guard_eq_some', exists_const]
  constructor
  · rintro ⟨listed, hlisted, valueLength, hvalue, hfour, hlength, keyLength, hkey, hdone⟩
    cases hdone
    exact ⟨listed, valueLength, keyLength, hlisted, hvalue, hfour, hlength, hkey, rfl⟩
  · rintro ⟨listed, valueLength, keyLength, hlisted, hvalue, hfour, hlength, hkey, rfl⟩
    exact ⟨listed, hlisted, valueLength, hvalue, hfour, hlength, keyLength, hkey, rfl⟩

theorem build?_eq_some {b : VersionBlock} {build : Nat} :
    b.build? = some build ↔ b.valueLength = fixedWords ∧
      b.start + fixedWords ≤ b.words.length ∧ b.words[b.start + 10]? = some build := by
  unfold VersionBlock.build?
  simp only [Option.bind_eq_bind, Option.bind_eq_some_iff, Option.guard_eq_some', exists_const]

/-- The first zero of a list ends the part that holds none. -/
theorem findIdx?_zero {xs : List Nat} {k : Nat} :
    xs.findIdx? (· == 0) = some k ↔
      ∃ key rest, xs = key ++ 0 :: rest ∧ key.length = k ∧ 0 ∉ key := by
  constructor
  · intro h
    rcases List.findIdx?_eq_some_iff_getElem.mp h with ⟨hk, hzero, hfirst⟩
    have hsplit := List.take_append_drop k xs
    rw [List.drop_eq_getElem_cons hk, eq_of_beq hzero] at hsplit
    refine ⟨xs.take k, xs.drop (k + 1), hsplit.symm, List.length_take_of_le hk.le, ?_⟩
    intro hmem
    rcases List.mem_iff_getElem.mp hmem with ⟨j, hj, hvalue⟩
    rw [List.getElem_take] at hvalue
    have hjk : j < k := hj.trans_le (List.length_take_le k xs)
    exact hfirst j hjk (beq_iff_eq.mpr hvalue)
  · rintro ⟨key, rest, rfl, rfl, hkey⟩
    have hnone : key.findIdx? (· == 0) = none := by
      rw [List.findIdx?_eq_none_iff]
      intro x hx
      rw [beq_eq_false_iff_ne]
      rintro rfl
      exact hkey hx
    rw [List.findIdx?_append, hnone]
    simp [List.findIdx?_cons]

theorem exists_front {words : List Nat} {listed valueLength : Nat} (hfour : 4 ≤ words.length)
    (hlisted : words[0]? = some listed) (hvalue : words[1]? = some valueLength) :
    ∃ type more, words = [listed, valueLength, type] ++ more := by
  match words with
  | a :: b :: type :: more =>
      cases hlisted
      cases hvalue
      exact ⟨type, more, rfl⟩
  | [] | [_] | [_, _] => simp at hfour

/-- A list that is long enough begins with parts of these lengths. -/
theorem exists_parts {xs : List Nat} {gap count : Nat} (h : gap + count ≤ xs.length) :
    ∃ padding value rest, xs = padding ++ value ++ rest ∧ padding.length = gap ∧
      value.length = count := by
  refine ⟨xs.take gap, (xs.drop gap).take count, (xs.drop gap).drop count, ?_, ?_, ?_⟩
  · rw [List.append_assoc, List.take_append_drop, List.take_append_drop]
  · exact List.length_take_of_le (by lia)
  · exact List.length_take_of_le (by rw [List.length_drop]; lia)

theorem getElem?_value {front value rest : List Nat} {start k : Nat}
    (hstart : front.length = start) (hk : k < value.length) :
    (front ++ value ++ rest)[start + k]? = value[k]? := by
  rw [List.append_assoc, List.getElem?_append_right (by lia), hstart, Nat.add_sub_cancel_left,
    List.getElem?_append_left hk]

theorem ten_lt_fixedWords : 10 < fixedWords := by
  decide

theorem blockWith_of_ofWords? {words : List Nat} {b : VersionBlock} {build : Nat}
    (hb : VersionBlock.ofWords? words = some b) (hbuild : b.build? = some build) :
    BlockWith build words := by
  rcases ofWords?_eq_some.mp hb with ⟨listed, valueLength, keyLength, hlisted, hvalue, hfour,
    hwhole, hkey, rfl⟩
  rcases build?_eq_some.mp hbuild with ⟨hlength, hfits, hbuild⟩
  rcases findIdx?_zero.mp hkey with ⟨key, tail, htail, rfl, hzero⟩
  rcases exists_front hfour hlisted hvalue with ⟨type, more, rfl⟩
  rcases Nat.exists_eq_add_of_le' (Nat.le_max_left 4 (listed / 2)) with ⟨m, hm⟩
  have hblock : ([listed, valueLength, type] ++ more).take (max 4 (listed / 2)) =
      [listed, valueLength, type] ++ key ++ [0] ++ tail := by
    rw [hm] at htail ⊢
    simpa using htail
  obtain ⟨below, hbelow⟩ : ∃ below, [listed, valueLength, type] ++ key ++ [0] ++ tail ++ below =
      [listed, valueLength, type] ++ more := by
    rw [← hblock]
    exact ⟨_, List.take_append_drop _ _⟩
  have hend := congrArg List.length hblock
  rw [List.length_take_of_le hwhole] at hend
  -- Between the zero that ends the key and the value there is at most one word.
  obtain ⟨gap, hgap⟩ : ∃ gap, 2 * ((key.length + 1) / 2) = key.length + gap :=
    Nat.exists_eq_add_of_le (by lia)
  rw [hgap, hblock] at hfits hbuild
  rcases @exists_parts tail gap fixedWords (by simp at hfits; lia) with
    ⟨padding, value, rest, rfl, rfl, hcount⟩
  have hfront : ([listed, valueLength, type] ++ key ++ [0] ++ padding).length =
      4 + (key.length + padding.length) := by
    simp
    lia
  have hten : 10 < value.length := hcount.symm ▸ ten_lt_fixedWords
  refine ⟨listed, valueLength, type, key, padding, value, rest ++ below, ?_, hzero, by lia, by lia,
    hlength, hcount, ?_, ?_, hwhole⟩
  · rw [← hbelow]
    simp only [List.append_assoc]
  · have hplace : ([listed, valueLength, type] ++ key ++ [0] ++ (padding ++ value ++ rest))[
        4 + (key.length + padding.length) + 10]? = some build := hbuild
    rw [← List.append_assoc, ← List.append_assoc, getElem?_value hfront hten] at hplace
    exact hplace
  · simp at hend
    lia

theorem ofWords?_of_blockWith {words : List Nat} {build : Nat} (h : BlockWith build words) :
    ∃ b, VersionBlock.ofWords? words = some b ∧ b.build? = some build := by
  rcases h with ⟨listed, valueLength, type, key, padding, value, rest, rfl, hkey, hpadding, heven,
    hlength, hvalue, hbuild, hfits, hwhole⟩
  have hfront : ([listed, valueLength, type] ++ key ++ [0] ++ padding).length =
      key.length + padding.length + 4 := by
    simp
    lia
  -- The block holds all that is said of it, and may hold more.
  have hblock : ∃ more, ([listed, valueLength, type] ++ key ++ [0] ++ padding ++ value ++ rest).take
      (max 4 (listed / 2)) =
        [listed, valueLength, type] ++ key ++ [0] ++ padding ++ value ++ more := by
    rw [List.take_append, List.take_of_length_le (by rw [List.length_append, hfront]; lia)]
    exact ⟨_, rfl⟩
  rcases hblock with ⟨more, hmore⟩
  refine ⟨_, ofWords?_eq_some.mpr ⟨listed, valueLength, key.length, by simp, by simp, ?_, hwhole,
    ?_, rfl⟩, ?_⟩
  · exact (Nat.le_max_left _ _).trans hwhole
  · rw [hmore]
    exact findIdx?_zero.mpr ⟨key, padding ++ value ++ more, by simp, rfl, hkey⟩
  · have hstart : 4 + 2 * ((key.length + 1) / 2) = key.length + padding.length + 4 := by lia
    have hten : 10 < value.length := hvalue.symm ▸ ten_lt_fixedWords
    rw [build?_eq_some, hstart, hmore]
    refine ⟨hlength, ?_, (getElem?_value hfront hten).trans hbuild⟩
    rw [List.length_append, List.length_append, hfront, hvalue]
    lia

/-- The version resource of the file reports this build. -/
def ReportsBuild (file : ByteArray) (h : Headers) (n : Nat) : Prop :=
  ∃ r words, ResourcesAt file h r ∧ VersionAt file r words ∧ BlockWith n words

theorem build_eq_ok_some {file : ByteArray} {h : Headers} {n : Nat} :
    build file h = .ok (some n) ↔ ReportsBuild file h n := by
  unfold build ReportsBuild
  have hblock : ∀ b, ((resourceArea? file h).bind (versionWords? file)).bind
      VersionBlock.ofWords? = some b ↔ ∃ r words, ResourcesAt file h r ∧ VersionAt file r words ∧
        VersionBlock.ofWords? words = some b := by
    intro b
    simp only [Option.bind_eq_some_iff, resourceArea?_eq_some, versionWords?_eq_some]
    constructor
    · rintro ⟨words, ⟨r, hr, hwords⟩, hb⟩
      exact ⟨r, words, hr, hwords, hb⟩
    · rintro ⟨r, words, hr, hwords, hb⟩
      exact ⟨words, ⟨r, hr, hwords⟩, hb⟩
  constructor
  · intro hbuild
    dsimp only at hbuild
    split at hbuild
    · cases hbuild
    · rename_i b hb
      rcases (hblock b).mp hb with ⟨r, words, hr, hwords, hof⟩
      split at hbuild
      · cases hbuild
      · exact ⟨r, words, hr, hwords, blockWith_of_ofWords? hof (Except.ok.inj hbuild)⟩
  · rintro ⟨r, words, hr, hwords, hwith⟩
    rcases ofWords?_of_blockWith hwith with ⟨b, hof, hbuild⟩
    have hfits := (build?_eq_some.mp hbuild).2.1
    dsimp only
    rw [(hblock b).mpr ⟨r, words, hr, hwords, hof⟩]
    dsimp only
    rw [if_neg (by lia), hbuild]

end Image
end JumpHooks
