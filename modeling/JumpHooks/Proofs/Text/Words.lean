import JumpHooks.Text.Blank
import JumpHooks.Text.Number

/-!
# Words and digits

The words of a text are its characters that are not blank, cut where blanks stand. Digits are
never blank, and a number is known by its digits.
-/

namespace JumpHooks
namespace Text

/-!
# The characters of words
-/

/-- The characters of a text that are not blank. -/
def visible (cs : List Char) : List Char :=
  cs.filter fun c => !isBlank c

theorem visible_append (as bs : List Char) :
    visible (as ++ bs) = visible as ++ visible bs :=
  List.filter_append as bs

theorem flatten_pieces (cs : List Char) : (pieces cs).flatten = visible cs := by
  induction cs with
  | nil => rfl
  | cons c cs ih =>
      unfold pieces visible
      by_cases hc : isBlank c = true
      · rw [if_pos hc, List.filter_cons_of_neg (by simp [hc]), List.flatten_cons]
        exact ih
      · rw [if_neg hc, List.filter_cons_of_pos (by simp [hc])]
        unfold visible at ih
        rw [← ih]
        cases pieces cs with
        | nil => rfl
        | cons piece others => rfl

theorem flatten_words (s : String) : (words s).flatten = visible s.toList := by
  unfold words
  rw [List.flatten_filter_not_isEmpty, flatten_pieces]

/-!
# Digits
-/

theorem isBlank_digitChar {d : Nat} (hd : d < 16) : isBlank d.digitChar = false := by
  have hall : ∀ d < 16, isBlank (Nat.digitChar d) = false := by decide
  exact hall d hd

theorem digitChar_inj {d e : Nat} (hd : d < 16) (he : e < 16)
    (h : d.digitChar = e.digitChar) : d = e := by
  have hall : ∀ d < 16, ∀ e < 16, Nat.digitChar d = Nat.digitChar e → d = e := by decide
  exact hall d hd e he h

theorem visible_toDigits (n : Nat) : visible (Nat.toDigits 16 n) = Nat.toDigits 16 n := by
  induction n using Nat.strongRecOn with
  | ind n ih =>
      by_cases hn : n < 16
      · rw [Nat.toDigits_of_lt_base hn]
        simp [visible, isBlank_digitChar hn]
      · have hle : 16 ≤ n := Nat.not_lt.mp hn
        rw [Nat.toDigits_of_base_le (by decide) hle, visible_append, ih (n / 16) (by lia)]
        simp [visible, isBlank_digitChar (Nat.mod_lt n (by decide))]

theorem toDigits_inj {m n : Nat} (h : Nat.toDigits 16 m = Nat.toDigits 16 n) : m = n := by
  induction m using Nat.strongRecOn generalizing n with
  | ind m ih =>
      have hmlength : (Nat.toDigits 16 m).length ≤ 1 ↔ m < 16 :=
        Nat.length_toDigits_le_iff (by decide) Nat.one_pos
      have hnlength : (Nat.toDigits 16 n).length ≤ 1 ↔ n < 16 :=
        Nat.length_toDigits_le_iff (by decide) Nat.one_pos
      have hsingle : m < 16 ↔ n < 16 := by
        rw [← hmlength, h, hnlength]
      by_cases hm : m < 16
      · have hn := hsingle.mp hm
        rw [Nat.toDigits_of_lt_base hm, Nat.toDigits_of_lt_base hn, List.cons.injEq] at h
        exact digitChar_inj hm hn h.1
      · have hn := mt hsingle.mpr hm
        rw [Nat.toDigits_of_base_le (by decide) (Nat.not_lt.mp hm),
          Nat.toDigits_of_base_le (by decide) (Nat.not_lt.mp hn)] at h
        rcases List.append_inj' h rfl with ⟨hhigh, hlow⟩
        rw [List.cons.injEq] at hlow
        have hdiv : m / 16 = n / 16 := ih (m / 16) (by lia) hhigh
        have hmod : m % 16 = n % 16 :=
          digitChar_inj (Nat.mod_lt m (by decide)) (Nat.mod_lt n (by decide)) hlow.1
        rw [← Nat.div_add_mod m 16, hdiv, hmod, Nat.div_add_mod]

/-- Two texts that differ only in one number have different words. -/
theorem hex_inj_of_words {before after : String} {m n : Nat}
    (h : words (before ++ hex m ++ after) = words (before ++ hex n ++ after)) : m = n := by
  have hvisible := congrArg List.flatten h
  rw [flatten_words, flatten_words] at hvisible
  simp only [String.toList_append, visible_append, hex, String.toList_ofList,
    visible_toDigits, List.append_assoc] at hvisible
  exact toDigits_inj (List.append_cancel_right (List.append_cancel_left hvisible))

end Text
end JumpHooks
