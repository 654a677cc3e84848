import JumpHooks.Proofs.Source.Reading
import JumpHooks.Source.Function
import Mathlib.Data.List.Basic

/-!
# Arrays that read back

Each line of an array is read back as the bytes of its instruction. Room is left for the bytes
that an instruction is shorter than the longest one, so the comments begin in one column.
-/

namespace JumpHooks
namespace Source

/-!
# Bytes
-/

theorem hexDigit?_digitChar {d : Nat} (hd : d < 16) : hexDigit? d.digitChar = some d := by
  have hall : ∀ d < 16, hexDigit? (Nat.digitChar d) = some d := by decide
  exact hall d hd

theorem digitChar_ne_slash {d : Nat} (hd : d < 16) : d.digitChar ≠ '/' := by
  have hall : ∀ d < 16, Nat.digitChar d ≠ '/' := by decide
  exact hall d hd

def byteChars (b : UInt8) : List Char :=
  ['0', 'x', (b.toNat / 16).digitChar, (b.toNat % 16).digitChar, ',', ' ']

theorem toList_padded_hex {n : Nat} (hn : n < 256) :
    (Text.padded 2 (Text.hex n)).toList = [(n / 16).digitChar, (n % 16).digitChar] := by
  have hlength : (Text.hex n).length = (Nat.toDigits 16 n).length := by
    unfold Text.hex
    rw [← String.length_toList, String.toList_ofList]
  unfold Text.padded
  rw [String.toList_append, String.toList_ofList, hlength]
  unfold Text.hex
  rw [String.toList_ofList]
  by_cases hsmall : n < 16
  · rw [Nat.toDigits_of_lt_base hsmall, Nat.div_eq_of_lt hsmall, Nat.mod_eq_of_lt hsmall]
    rfl
  · have hhigh : n / 16 < 16 := by lia
    rw [Nat.toDigits_of_base_le (by decide) (Nat.not_lt.mp hsmall),
      Nat.toDigits_of_lt_base hhigh]
    rfl

theorem toList_byteText (b : UInt8) : (byteText b).toList = byteChars b := by
  unfold byteText byteChars
  rw [String.toList_append, String.toList_append, toList_padded_hex b.toNat_lt]
  rfl

theorem bytes?_byte {high low : Char} {h l : Nat} (hhigh : hexDigit? high = some h)
    (hlow : hexDigit? low = some l) (cs : List Char) :
    bytes? ('0' :: 'x' :: high :: low :: ',' :: cs) =
      (bytes? cs).map (UInt8.ofNat (16 * h + l) :: ·) := by
  rw [bytes?, hhigh, hlow]
  cases bytes? cs with
  | none => rfl
  | some rest => rfl

theorem bytes?_byteChars (b : UInt8) (cs : List Char) :
    bytes? (byteChars b ++ cs) = (bytes? cs).map (b :: ·) := by
  have hhigh : b.toNat / 16 < 16 := by
    have hlt := b.toNat_lt
    lia
  have hbyte : UInt8.ofNat (16 * (b.toNat / 16) + b.toNat % 16) = b := by
    rw [Nat.div_add_mod, UInt8.ofNat_toNat]
  have hblank : bytes? (' ' :: cs) = bytes? cs := rfl
  refine (bytes?_byte (hexDigit?_digitChar hhigh)
    (hexDigit?_digitChar (Nat.mod_lt _ (by decide))) (' ' :: cs)).trans ?_
  rw [hbyte, hblank]

theorem bytes?_flatMap (code : List UInt8) (cs : List Char) :
    bytes? (code.flatMap byteChars ++ cs) = (bytes? cs).map (code ++ ·) := by
  induction code with
  | nil => simp
  | cons b code ih =>
      rw [List.flatMap_cons, List.append_assoc, bytes?_byteChars, ih, Option.map_map]
      rfl

theorem bytes?_tabs (level : Nat) (cs : List Char) :
    bytes? (List.replicate level '\t' ++ cs) = bytes? cs := by
  induction level with
  | zero => rfl
  | succ level ih => exact ih

theorem bytes?_blanks (count : Nat) : bytes? (List.replicate count ' ') = some [] := by
  induction count with
  | zero => rfl
  | succ count ih => exact ih

theorem comment?_eq {before : List Char} (h : '/' ∉ before) (comment : List Char) :
    comment? (before ++ '/' :: '/' :: comment) = some (before, comment) := by
  have hbefore : ∀ c ∈ before, (c != '/') = true := by
    intro c hc
    rw [bne_iff_ne]
    intro heq
    rw [heq] at hc
    exact h hc
  unfold comment?
  rw [List.dropWhile_append_of_pos hbefore, List.takeWhile_append_of_pos hbefore]
  show some (before ++ [], comment) = _
  rw [List.append_nil]

/-!
# Rows
-/

/-- The characters in front of the comment of an instruction. -/
def rowChars (level longest : Nat) (code : List UInt8) : List Char :=
  List.replicate level '\t' ++ (code.flatMap byteChars ++
    List.replicate ((longest - code.length) * byteColumns + 1) ' ')

theorem length_byteChars (code : List UInt8) :
    (code.flatMap byteChars).length = code.length * byteColumns := by
  rw [List.length_flatMap]
  show (code.map fun _ => byteColumns).sum = _
  simp

theorem length_rowChars {level longest : Nat} {code : List UInt8} (h : code.length ≤ longest) :
    (rowChars level longest code).length = level + longest * byteColumns + 1 := by
  have hroom := Nat.mul_le_mul_right byteColumns h
  unfold rowChars
  rw [List.length_append, List.length_append, List.length_replicate, List.length_replicate,
    length_byteChars, Nat.sub_mul]
  lia

theorem slash_notMem_rowChars (level longest : Nat) (code : List UInt8) :
    '/' ∉ rowChars level longest code := by
  intro hmem
  rcases List.mem_append.mp hmem with htab | hrest
  · exact absurd (List.eq_of_mem_replicate htab) (by decide)
  · rcases List.mem_append.mp hrest with hbyte | hblank
    · rcases List.mem_flatMap.mp hbyte with ⟨b, _, hchar⟩
      have hlow := digitChar_ne_slash (Nat.mod_lt b.toNat (by decide : 0 < 16))
      have hhigh : (b.toNat / 16).digitChar ≠ '/' := by
        have hlt := b.toNat_lt
        exact digitChar_ne_slash (by lia)
      simp [byteChars, hlow.symm, hhigh.symm] at hchar
    · exact absurd (List.eq_of_mem_replicate hblank) (by decide)

theorem toList_encodedLine (bitness : Bitness) (longest : Nat) (e : Encoded) :
    (encodedLine bitness longest e).toList =
      e.code.flatMap byteChars ++
        (List.replicate ((longest - e.code.length) * byteColumns + 1) ' ' ++
          '/' :: '/' :: ' ' :: (e.instruction.text .comment bitness).toList) := by
  have hjoin : (String.join (e.code.map byteText)).toList = e.code.flatMap byteChars := by
    induction e.code with
    | nil => rfl
    | cons b code ih =>
        rw [List.map_cons, String.join_cons, String.toList_append, ih, toList_byteText,
          List.flatMap_cons]
  have hseparator : " // ".toList = [' ', '/', '/', ' '] := rfl
  unfold encodedLine
  rw [String.toList_append, String.toList_append, String.toList_append, hjoin,
    String.toList_ofList, hseparator, List.replicate_succ']
  simp

/-- How long a line is depends on the text of its instruction only. -/
theorem length_encodedLine (bitness : Bitness) {longest : Nat} {e : Encoded}
    (h : e.code.length ≤ longest) :
    (encodedLine bitness longest e).length =
      longest * byteColumns + (e.instruction.text .comment bitness).length + 4 := by
  have hroom := Nat.mul_le_mul_right byteColumns h
  rw [← String.length_toList, toList_encodedLine, List.length_append, length_byteChars,
    List.length_append, List.length_replicate, Nat.sub_mul]
  simp only [List.length_cons, String.length_toList]
  lia

theorem head?_encodedLine (bitness : Bitness) (longest : Nat) (e : Encoded) :
    (encodedLine bitness longest e).toList.head? = some '0' ∨
      (encodedLine bitness longest e).toList.head? = some ' ' := by
  rw [toList_encodedLine]
  cases e.code with
  | nil => exact .inr rfl
  | cons byte code => exact .inl rfl

theorem toList_indented_encodedLine (bitness : Bitness) (level longest : Nat) (e : Encoded) :
    (Writer.indented level (encodedLine bitness longest e)).toList =
      rowChars level longest e.code ++ '/' :: '/' :: ' ' ::
        (e.instruction.text .comment bitness).toList := by
  have hne : encodedLine bitness longest e ≠ "" := by
    intro hempty
    have hhead := head?_encodedLine bitness longest e
    rw [hempty] at hhead
    rcases hhead with h | h
    · cases h
    · cases h
  rw [Writer.toList_indented hne, toList_encodedLine]
  unfold rowChars
  simp

def row (bitness : Bitness) (level longest : Nat) (e : Encoded) : Row :=
  ⟨e.code, level + longest * byteColumns + 1, " " ++ e.instruction.text .comment bitness⟩

/-- A line reads back as the bytes of its instruction, in front of a comment whose column does
not depend on their number. -/
theorem ofLine?_encodedLine (bitness : Bitness) (level : Nat) {longest : Nat} {e : Encoded}
    (h : e.code.length ≤ longest) :
    Row.ofLine? (Writer.indented level (encodedLine bitness longest e)) =
      some (row bitness level longest e) := by
  have hbytes : bytes? (rowChars level longest e.code) = some e.code := by
    unfold rowChars
    rw [bytes?_tabs, bytes?_flatMap, bytes?_blanks, Option.map_some, List.append_nil]
  have hcomment : String.ofList (' ' :: (e.instruction.text .comment bitness).toList) =
      " " ++ e.instruction.text .comment bitness := by
    rw [← String.toList_inj, String.toList_ofList, String.toList_append]
    rfl
  unfold Row.ofLine? row
  rw [toList_indented_encodedLine, comment?_eq (slash_notMem_rowChars level longest e.code),
    Option.bind_some]
  dsimp only
  rw [hbytes, Option.map_some, length_rowChars h, hcomment]

/-!
# Whole arrays
-/

def longest (s : HookStub) : Nat :=
  (s.body.map fun e => e.code.length).foldl max 0

theorem le_foldl_max (ns : List Nat) (m : Nat) :
    m ≤ ns.foldl max m ∧ ∀ n ∈ ns, n ≤ ns.foldl max m := by
  induction ns generalizing m with
  | nil => exact ⟨Nat.le_refl m, fun n hn => absurd hn List.not_mem_nil⟩
  | cons first ns ih =>
      rcases ih (max m first) with ⟨hbase, hrest⟩
      refine ⟨Nat.le_trans (Nat.le_max_left m first) hbase, ?_⟩
      intro n hn
      rcases List.mem_cons.mp hn with heq | hmem
      · rw [heq]
        exact Nat.le_trans (Nat.le_max_right m first) hbase
      · exact hrest n hmem

theorem length_le_longest {s : HookStub} {e : Encoded} (he : e ∈ s.body) :
    e.code.length ≤ longest s :=
  (le_foldl_max _ 0).2 _ (List.mem_map.mpr ⟨e, he, rfl⟩)

/-- The lines of an array, between the one that opens and the one that closes it. -/
def rowLines (level : Nat) (s : HookStub) : List String :=
  (s.body.map (encodedLine s.bitness (longest s))).map (Writer.indented level)

theorem lays_byteArray {level : Nat} {s : HookStub} {name : String}
    (hname : level + ("unsigned char " ++ name ++ "[] = \x7b").length ≤ lineLimit)
    (hrows : ∀ e ∈ s.body,
      level + 1 + (encodedLine s.bitness (longest s) e).length ≤ lineLimit) :
    Lays level (byteArray s name)
      (Writer.indented level ("unsigned char " ++ name ++ "[] = \x7b") ::
        rowLines (level + 1) s ++ [Writer.indented level "\x7d;"]) level := by
  have hbody : s.body.map (fun e => Item.line (encodedLine s.bitness (longest s) e)) =
      (s.body.map (encodedLine s.bitness (longest s))).map .line := by
    rw [List.map_map]
    rfl
  have hlast : level + "\x7d;".length ≤ lineLimit := by
    have hlength : "\x7d;".length ≤ ("unsigned char " ++ name ++ "[] = \x7b").length := by
      rw [String.length_append, String.length_append]
      exact Nat.le_trans (by decide : "\x7d;".length ≤ "[] = \x7b".length)
        (Nat.le_add_left _ _)
    exact Nat.le_trans (Nat.add_le_add_left hlength level) hname
  have hlines : Lays (level + 1)
      (s.body.map fun e => .line (encodedLine s.bitness (longest s) e))
      (rowLines (level + 1) s) (level + 1) := by
    rw [hbody]
    apply Lays.ofLines
    intro text htext
    rcases List.mem_map.mp htext with ⟨e, he, heq⟩
    rw [← heq]
    exact hrows e he
  exact Lays.block _ _ hname hlast hlines

theorem mapM_rowLines (level : Nat) (s : HookStub) :
    (rowLines level s).mapM Row.ofLine? =
      some (s.body.map (row s.bitness level (longest s))) := by
  have hbody : ∀ body : List Encoded, (∀ e ∈ body, e.code.length ≤ longest s) →
      ((body.map (encodedLine s.bitness (longest s))).map (Writer.indented level)).mapM
        Row.ofLine? = some (body.map (row s.bitness level (longest s))) := by
    intro body hlengths
    induction body with
    | nil => rfl
    | cons e body ih =>
        have hrest := ih fun e' he' => hlengths e' (List.mem_cons_of_mem _ he')
        rw [List.map_cons, List.map_cons, List.mapM_cons, hrest,
          ofLine?_encodedLine s.bitness level (hlengths e List.mem_cons_self)]
        rfl
  exact hbody s.body fun e he => length_le_longest he

end Source
end JumpHooks
