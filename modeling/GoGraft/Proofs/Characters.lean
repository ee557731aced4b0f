import GoGraft.Text.Basic

/-! The classes of characters and how they lie to each other: white space is in no word, and what opens a word can
also stand in one. Above 0x80 this is a matter of the tables, and is decided on their ranges. -/

namespace GoGraft.Text

theorem byteSize_cons (c : Char) (rest : Text) : byteSize (c :: rest) = c.utf8Size + byteSize rest := by
  have hfold (n : Nat) : rest.foldl (fun n c => n + c.utf8Size) n = n + byteSize rest := by
    unfold byteSize
    induction rest generalizing n with
    | nil => simp
    | cons d rest ih =>
        rw [List.foldl_cons, List.foldl_cons, ih (n + d.utf8Size), ih (0 + d.utf8Size)]
        omega
  rw [byteSize, List.foldl_cons, hfold]
  omega

/-- Each inner range lies in an outer one, where the ranges of both lists stand in order. -/
def covered (inner : List (Nat × Nat)) : List (Nat × Nat) → Bool
  | [] => inner.isEmpty
  | s :: outer => covered (inner.dropWhile fun r => s.1.ble r.1 && r.2.ble s.2) outer

theorem inRanges_of_covered {inner outer : List (Nat × Nat)} {c : Char}
    (hcovered : covered inner outer) (hinner : inRanges inner c) : inRanges outer c := by
  induction outer generalizing inner with
  | nil =>
      have hnil : inner = [] := List.isEmpty_iff.mp hcovered
      rw [hnil] at hinner
      exact hinner
  | cons s outer ih =>
      let lies (r : Nat × Nat) : Bool := s.1.ble r.1 && r.2.ble s.2
      rw [← @List.takeWhile_append_dropWhile _ lies inner] at hinner
      simp only [inRanges, List.any_append, List.any_cons, Bool.or_eq_true] at hinner ⊢
      obtain hwithin | hrest := hinner
      · left
        obtain ⟨r, hr, hc⟩ := List.any_eq_true.mp hwithin
        have hlies : lies r := List.all_eq_true.mp List.all_takeWhile r hr
        simp only [lies, Bool.and_eq_true, Nat.ble_eq, decide_eq_true_eq] at hlies hc ⊢
        omega
      · exact .inr (ih hcovered hrest)

theorem not_inRanges_of_apart {left right : List (Nat × Nat)} {c : Char}
    (hapart : left.all fun r => right.all fun s => decide (r.2 < s.1) || decide (s.2 < r.1))
    (hleft : inRanges left c) : ¬ inRanges right c := by
  intro hright
  obtain ⟨r, hr, hc⟩ := List.any_eq_true.mp hleft
  obtain ⟨s, hs, hd⟩ := List.any_eq_true.mp hright
  have happart := List.all_eq_true.mp (List.all_eq_true.mp hapart r hr) s hs
  simp only [Bool.and_eq_true, Bool.or_eq_true, decide_eq_true_eq] at hc hd happart
  omega

/-- All ranges of white space. -/
def spaces : List (Nat × Nat) :=
  [(9, 13), (0x20, 0x20), (0x85, 0x85), (0xa0, 0xa0), (0x1680, 0x1680), (0x2000, 0x200a),
    (0x2028, 0x2029), (0x202f, 0x202f), (0x205f, 0x205f), (0x3000, 0x3000)]

theorem inRanges_spaces {c : Char} (hspace : isSpace c) : inRanges spaces c := by
  unfold isSpace at hspace
  split at hspace
  · simp only [Bool.or_eq_true, beq_iff_eq, Bool.and_eq_true, decide_eq_true_eq] at hspace
    obtain rfl | hspace := hspace
    · decide
    · simp [inRanges, spaces, hspace]
  · exact inRanges_of_covered (by decide) hspace

/-- All ranges of the characters of words. -/
def wordParts : List (Nat × Nat) :=
  (0x30, 0x39) :: (0x41, 0x5a) :: (0x5f, 0x5f) :: (0x61, 0x7a) :: Table.wordPart

theorem isAlpha_toNat {c : Char} (halpha : c.isAlpha) :
    (0x41 ≤ c.toNat ∧ c.toNat ≤ 0x5a) ∨ (0x61 ≤ c.toNat ∧ c.toNat ≤ 0x7a) := by
  delta Char.isAlpha Char.isUpper Char.isLower at halpha
  simp only [Bool.or_eq_true, Bool.and_eq_true, decide_eq_true_eq, UInt32.le_iff_toNat_le, ge_iff_le] at halpha
  exact halpha

theorem isDigit_toNat {c : Char} (hdigit : c.isDigit) : 0x30 ≤ c.toNat ∧ c.toNat ≤ 0x39 := by
  simp only [Char.isDigit, Bool.and_eq_true, decide_eq_true_eq, UInt32.le_iff_toNat_le,
    ge_iff_le] at hdigit
  exact hdigit

theorem inRanges_wordParts {c : Char} (hpart : isWordPart c) : inRanges wordParts c := by
  unfold isWordPart at hpart
  split at hpart
  · simp only [Bool.or_eq_true, beq_iff_eq] at hpart
    obtain (halpha | hdigit) | rfl := hpart
    · have hrange := isAlpha_toNat halpha
      simp only [inRanges, wordParts, List.any_cons, Bool.or_eq_true, Bool.and_eq_true,
        decide_eq_true_eq]
      omega
    · have hrange := isDigit_toNat hdigit
      simp only [inRanges, wordParts, List.any_cons, Bool.or_eq_true, Bool.and_eq_true,
        decide_eq_true_eq]
      omega
    · decide
  · simp only [inRanges, wordParts, List.any_cons, Bool.or_eq_true]
    exact .inr (.inr (.inr (.inr hpart)))

theorem not_isSpace_of_isWordPart {c : Char} (hpart : isWordPart c) : ¬ isSpace c := by
  intro hspace
  exact not_inRanges_of_apart (by decide +kernel) (inRanges_spaces hspace) (inRanges_wordParts hpart)

theorem isWordPart_of_isWordStart {c : Char} (hstart : isWordStart c) : isWordPart c := by
  unfold isWordStart at hstart
  unfold isWordPart
  split at hstart
  · rename_i hlow
    rw [if_pos hlow]
    simp only [Bool.or_eq_true] at hstart ⊢
    exact hstart.imp_left .inl
  · rename_i hhigh
    rw [if_neg hhigh]
    exact inRanges_of_covered (by decide +kernel) hstart

theorem not_isSpace_of_isAlpha {c : Char} (halpha : c.isAlpha) : ¬ isSpace c := by
  have hrange := isAlpha_toNat halpha
  apply not_isSpace_of_isWordPart
  rw [isWordPart, if_pos (by omega), halpha]
  rfl

theorem not_isSpace_of_isDigit {c : Char} (hdigit : c.isDigit) : ¬ isSpace c := by
  have hrange := isDigit_toNat hdigit
  apply not_isSpace_of_isWordPart
  rw [isWordPart, if_pos (by omega), hdigit]
  simp

theorem not_isSpace_of_isLetterOrNumber {c : Char} (hletter : isLetterOrNumber c) : ¬ isSpace c := by
  intro hspace
  unfold isLetterOrNumber at hletter
  split at hletter
  · simp only [Bool.or_eq_true] at hletter
    obtain halpha | hdigit := hletter
    · exact not_isSpace_of_isAlpha halpha hspace
    · exact not_isSpace_of_isDigit hdigit hspace
  · simp only [Bool.or_eq_true] at hletter
    obtain hletter | hnumber := hletter
    · exact not_inRanges_of_apart (by decide +kernel) (inRanges_spaces hspace) hletter
    · exact not_inRanges_of_apart (by decide +kernel) (inRanges_spaces hspace) hnumber

theorem isLetterOrNumber_of_isLetter {c : Char} (hletter : isLetter c) : isLetterOrNumber c := by
  unfold isLetter at hletter
  unfold isLetterOrNumber
  split at hletter
  · rename_i hlow
    rw [if_pos hlow, hletter]
    rfl
  · rename_i hhigh
    rw [if_neg hhigh, hletter]
    rfl

/-- Only characters beyond plain source are letters that do not open a word. -/
theorem high_of_isLetter {c : Char} (hletter : isLetter c) (hstart : ¬ isWordStart c) :
    0x80 ≤ c.toNat := by
  by_cases hlow : c.toNat < 0x80
  · rw [isLetter, if_pos hlow] at hletter
    rw [isWordStart, if_pos hlow, hletter] at hstart
    exact absurd rfl hstart
  · omega

theorem high_of_isLetterOrNumber {c : Char} (hletter : isLetterOrNumber c) (hpart : ¬ isWordPart c) :
    0x80 ≤ c.toNat := by
  by_cases hlow : c.toNat < 0x80
  · rw [isLetterOrNumber, if_pos hlow] at hletter
    rw [isWordPart, if_pos hlow, hletter] at hpart
    exact absurd rfl hpart
  · omega

end GoGraft.Text
