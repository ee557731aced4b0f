import Mathlib.Data.List.Induction
import Mathlib.Data.List.TakeWhile
import GoGraft.Proofs.FieldEdits
import GoGraft.Proofs.TypeReading

/-!
# Type expressions with white space around their parts

A type expression whose leaves are identifiers can be written with white space before and after each of its parts, and
it is read back from every such text. The reader trims a text before it looks at it, so that white space at the two ends
of a part is never seen; what has to be shown is that a key is cut where it ends, and that the beginning of a map type
stands in the text of a key only where the key has a map type in it. Such a key is refused, and the text that is refused
is that of the map type around it.
-/

namespace GoGraft

namespace Text

variable {t left right front rest : Text}

theorem trimEnd_append_of_space (hright : ∀ c ∈ right, isSpace c) : trimEnd (t ++ right) = trimEnd t := by
  rw [trimEnd, List.reverse_append, List.dropWhile_append_of_pos (by simpa using hright), trimEnd]

theorem trim_of_surrounded (hleft : ∀ c ∈ left, isSpace c) (hright : ∀ c ∈ right, isSpace c) :
    trim (left ++ (t ++ right)) = trim t := by
  have hstart : trimStart (left ++ (t ++ right)) = trimStart (t ++ right) := List.dropWhile_append_of_pos hleft
  rw [trim, trim, hstart, trimStart, trimStart, List.dropWhile_append]
  split
  · rename_i hblank
    have hnil : right.dropWhile isSpace = [] := List.dropWhile_eq_nil_iff.mpr hright
    rw [hnil, List.isEmpty_iff.mp hblank]
  · exact trimEnd_append_of_space hright

theorem trim_trimEnd (t : Text) : trim (trimEnd t) = trim t := by
  have hsplit : trimEnd t ++ (t.reverse.takeWhile isSpace).reverse = t := by
    rw [trimEnd, ← List.reverse_append, List.takeWhile_append_dropWhile, List.reverse_reverse]
  have hwhite : ∀ c ∈ (t.reverse.takeWhile isSpace).reverse, isSpace c := by
    intro c hc
    exact List.all_eq_true.mp List.all_takeWhile c (List.mem_reverse.mp hc)
  calc trim (trimEnd t)
      = trim ([] ++ (trimEnd t ++ (t.reverse.takeWhile isSpace).reverse)) := (trim_of_surrounded (by simp) hwhite).symm
    _ = trim t := by rw [List.nil_append, hsplit]

theorem IsTrimmed.trim_append (hfront : front.IsTrimmed) (rest : Text) : trim (front ++ rest) = front ++ trimEnd rest := by
  have htrim := hfront.trim_eq
  obtain ⟨⟨first, hfirst, hink⟩, -⟩ := hfront
  obtain ⟨others, rfl⟩ := List.head?_eq_some_iff.mp hfirst
  have hstart (more : Text) : trimStart (first :: more) = first :: more := List.dropWhile_cons_of_neg hink
  rw [trim, hstart] at htrim
  rw [trim, List.cons_append, hstart, ← List.cons_append, trimEnd, List.reverse_append, List.dropWhile_append]
  split
  · rename_i hblank
    have hnil : trimEnd rest = [] := by rw [trimEnd, List.isEmpty_iff.mp hblank, List.reverse_nil]
    rw [hnil, List.append_nil]
    exact htrim
  · rw [List.reverse_append, List.reverse_reverse, trimEnd]

theorem exists_mem_splitAt {mark c : Char} (hc : c ∈ t) : c = mark ∨ ∃ part ∈ splitAt mark t, c ∈ part := by
  induction t with
  | nil => cases hc
  | cons d t ih =>
      rw [splitAt_cons]
      by_cases hd : d = mark
      · rw [if_pos (beq_iff_eq.mpr hd)]
        obtain rfl | hc := List.mem_cons.mp hc
        · exact .inl hd
        · exact (ih hc).imp_right fun ⟨part, hpart, hmem⟩ => ⟨part, List.mem_cons_of_mem _ hpart, hmem⟩
      · rw [if_neg (by simpa using hd)]
        cases hsplit : splitAt mark t with
        | nil =>
            rw [hsplit] at ih
            obtain rfl | hc := List.mem_cons.mp hc
            · exact .inr ⟨[c], by simp, by simp⟩
            · obtain hmark | ⟨part, hpart, -⟩ := ih hc
              · exact .inl hmark
              · cases hpart
        | cons first others =>
            rw [hsplit] at ih
            obtain rfl | hc := List.mem_cons.mp hc
            · exact .inr ⟨c :: first, by simp, by simp⟩
            · refine (ih hc).imp_right ?_
              rintro ⟨part, hpart, hmem⟩
              obtain rfl | hpart := List.mem_cons.mp hpart
              · exact ⟨d :: part, by simp, List.mem_cons_of_mem d hmem⟩
              · exact ⟨part, List.mem_cons_of_mem _ hpart, hmem⟩

end Text

namespace TypeExpr

/-- Some part of the expression is a map type. -/
def hasMapping : TypeExpr → Bool
  | pointer target => target.hasMapping
  | slice element => element.hasMapping
  | mapping _ _ => true
  | qualified _ _ | verbatim _ => false

/-- The leaves are identifiers, alone or selected from a package, one from the other. -/
def isNamed : TypeExpr → Bool
  | pointer target => target.isNamed
  | slice element => element.isNamed
  | mapping key value => key.isNamed && value.isNamed
  | qualified package name => isIdentifier package && isSelector name
  | verbatim text => isIdentifier text

/-- No key of a map type has a map type in it. -/
def hasFlatKeys : TypeExpr → Bool
  | pointer target => target.hasFlatKeys
  | slice element => element.hasFlatKeys
  | mapping key value => !key.hasMapping && value.hasFlatKeys
  | qualified _ _ | verbatim _ => true

theorem hasFlatKeys_of_not_hasMapping {type : TypeExpr} (hmapping : type.hasMapping = false) : type.hasFlatKeys := by
  induction type with
  | pointer target ih => exact ih hmapping
  | slice element ih => exact ih hmapping
  | mapping => cases hmapping
  | qualified | verbatim => rfl

/-- The texts of an expression, with white space before and after any of its parts. -/
inductive Spaced : Text → TypeExpr → Prop where
  | surround {left text right : Text} {type : TypeExpr} (hleft : ∀ c ∈ left, Text.isSpace c)
      (hright : ∀ c ∈ right, Text.isSpace c) (hspaced : Spaced text type) : Spaced (left ++ (text ++ right)) type
  | pointer {text : Text} {target : TypeExpr} (htarget : Spaced text target) : Spaced ('*' :: text) (pointer target)
  | slice {text : Text} {element : TypeExpr} (helement : Spaced text element) :
      Spaced ('[' :: ']' :: text) (slice element)
  | mapping {inside after : Text} {key value : TypeExpr} (hkey : Spaced inside key) (hvalue : Spaced after value) :
      Spaced ("map[".toList ++ (inside ++ ']' :: after)) (mapping key value)
  | qualified (package name : Text) : Spaced (package ++ '.' :: name) (qualified package name)
  | verbatim (text : Text) : Spaced text (verbatim text)

theorem spaced_render (type : TypeExpr) : Spaced type.render type := by
  induction type with
  | pointer target ih => exact .pointer ih
  | slice element ih => exact .slice ih
  | mapping key value ihKey ihValue => exact render_mapping key value ▸ .mapping ihKey ihValue
  | qualified package name => exact .qualified package name
  | verbatim text => exact .verbatim text

/-! ## Leaves -/

/-- Nothing but the characters of identifiers, and dots. -/
structure IsNameText (text : Text) : Prop where
  ne_nil : text ≠ []
  chars : ∀ c ∈ text, Text.isLetterOrNumber c ∨ c = '_' ∨ c = '.'

theorem isNameText_of_isIdentifier {name : Text} (hname : isIdentifier name) : IsNameText name := by
  refine ⟨?_, fun c hc => (isLetterOrNumber_of_isIdentifier hname c hc).imp_right .inl⟩
  rintro rfl
  cases hname

theorem isNameText_of_selected {package name : Text} (hpackage : isIdentifier package) (hname : isSelector name) :
    IsNameText (package ++ '.' :: name) := by
  refine ⟨by simp, List.forall_mem_append.mpr ⟨(isNameText_of_isIdentifier hpackage).chars, ?_⟩⟩
  refine List.forall_mem_cons.mpr ⟨.inr (.inr rfl), fun c hc => ?_⟩
  obtain hdot | ⟨part, hpart, hmem⟩ := @Text.exists_mem_splitAt name '.' c hc
  · exact .inr (.inr hdot)
  · rw [isSelector, Bool.and_eq_true, List.all_eq_true] at hname
    exact (isNameText_of_isIdentifier (hname.2 part hpart)).chars c hmem

namespace IsNameText

variable {text : Text}

theorem not_mem (hname : IsNameText text) {c : Char} (hletter : Text.isLetterOrNumber c = false) (hline : c ≠ '_')
    (hdot : c ≠ '.') : c ∉ text := by
  intro hc
  obtain hc | hc | hc := hname.chars c hc
  · rw [hletter] at hc
    cases hc
  · exact hline hc
  · exact hdot hc

theorem not_isSpace (hname : IsNameText text) : ∀ c ∈ text, ¬ Text.isSpace c := by
  intro c hc
  obtain hc | rfl | rfl := hname.chars c hc
  · exact Text.not_isSpace_of_isLetterOrNumber hc
  · decide
  · decide

theorem isTrimmed (hname : IsNameText text) : text.IsTrimmed :=
  ⟨⟨_, List.head?_eq_some_head hname.ne_nil, hname.not_isSpace _ (List.head_mem hname.ne_nil)⟩,
    ⟨_, List.getLast?_eq_some_getLast hname.ne_nil, hname.not_isSpace _ (List.getLast_mem hname.ne_nil)⟩⟩

theorem isBalanced (hname : IsNameText text) : IsBalanced text :=
  isBalanced_of_not_mem (hname.not_mem (by decide) (by decide) (by decide))
    (hname.not_mem (by decide) (by decide) (by decide))

theorem spells (hname : IsNameText text) : Spells text (readName text) := by
  have hstar : '*' ∉ text := hname.not_mem (by decide) (by decide) (by decide)
  have hbracket : '[' ∉ text := hname.not_mem (by decide) (by decide) (by decide)
  have hspells := @Spells.name text
  rw [hname.isTrimmed.trim_eq] at hspells
  refine hspells hname.ne_nil ?_ ?_ ?_
  · intro hfront
    exact hstar (hfront.subset (by decide))
  · intro hfront
    exact hbracket (hfront.subset (by decide))
  · intro hfront
    exact hbracket (hfront.subset (by decide))

end IsNameText

theorem ne_dot_of_isIdentifier {name : Text} (hname : isIdentifier name) : ∀ c ∈ name, (c != '.') = true := by
  intro c hc
  rw [bne_iff_ne]
  rintro rfl
  exact not_mem_of_isIdentifier hname (by decide) (by decide) hc

theorem readName_of_isIdentifier {name : Text} (hname : isIdentifier name) : readName name = verbatim name := by
  have hdrop := @List.dropWhile_append_of_pos _ (· != '.') name [] (ne_dot_of_isIdentifier hname)
  rw [List.append_nil, List.dropWhile_nil] at hdrop
  rw [readName, hdrop]

theorem readName_selected {package name : Text} (hpackage : isIdentifier package) (hname : isSelector name) :
    readName (package ++ '.' :: name) = qualified package name := by
  have hdot := ne_dot_of_isIdentifier hpackage
  have hdrop : (package ++ '.' :: name).dropWhile (· != '.') = '.' :: name := by
    rw [List.dropWhile_append_of_pos hdot]
    rfl
  have htake : (package ++ '.' :: name).takeWhile (· != '.') = package := by
    rw [List.takeWhile_append_of_pos hdot, List.takeWhile_cons_of_neg (by decide), List.append_nil]
  rw [readName, hdrop]
  simp [htake, hpackage, hname]

/-! ## Keys -/

/-- A map type that begins neither in `left` nor with its bracket in `right` stands between the two. -/
theorem infix_of_surrounded {left text right : Text} (hleft : 'm' ∉ left) (hright : '[' ∉ right)
    (hmap : "map[".toList <:+: left ++ (text ++ right)) : "map[".toList <:+: text := by
  induction left with
  | cons c left ih =>
      obtain ⟨hc, hleft⟩ := not_or.mp (mt List.mem_cons.mpr hleft)
      obtain hfront | hrest := List.infix_cons_iff.mp hmap
      · exact absurd (List.cons_prefix_cons.mp hfront).1 hc
      · exact ih hleft hrest
  | nil =>
      rw [List.nil_append] at hmap
      induction right using List.reverseRecOn with
      | nil => rwa [List.append_nil] at hmap
      | append_singleton right c ih =>
          rw [List.mem_append, not_or, List.mem_singleton] at hright
          rw [← List.append_assoc, List.infix_concat_iff] at hmap
          obtain hback | hrest := hmap
          · obtain ⟨front, hfront⟩ := hback
            have hlast := congrArg List.getLast? hfront
            rw [List.getLast?_concat, List.getLast?_append] at hlast
            exact absurd (Option.some.inj hlast) hright.2
          · exact ih hright.1 hrest

namespace Spaced

variable {text : Text} {type : TypeExpr}

theorem infix_of_hasMapping (hspaced : Spaced text type) (hmapping : type.hasMapping) : "map[".toList <:+: text := by
  induction hspaced with
  | @surround left text right _ _ _ _ ih => exact (ih hmapping).trans ⟨left, right, List.append_assoc ..⟩
  | pointer _ ih => exact (ih hmapping).trans (List.suffix_cons ..).isInfix
  | slice _ ih => exact (ih hmapping).trans (List.suffix_append ['[', ']'] _).isInfix
  | mapping => exact (List.prefix_append ..).isInfix
  | qualified | verbatim => cases hmapping

theorem hasMapping_of_infix (hspaced : Spaced text type) (hnamed : type.isNamed) (hmap : "map[".toList <:+: text) :
    type.hasMapping := by
  have hleaf {text : Text} (hname : IsNameText text) : ¬ "map[".toList <:+: text := fun hmap =>
    hname.not_mem (by decide) (by decide) (by decide) (hmap.subset (show '[' ∈ _ by decide))
  induction hspaced with
  | surround hleft hright _ ih =>
      refine ih hnamed (infix_of_surrounded (fun hm => ?_) (fun hbracket => ?_) hmap)
      · exact absurd (hleft _ hm) (by decide)
      · exact absurd (hright _ hbracket) (by decide)
  | @pointer text _ _ ih => exact ih hnamed (@infix_of_surrounded ['*'] text [] (by decide) (by simp) (by simpa using hmap))
  | @slice text _ _ ih =>
      exact ih hnamed (@infix_of_surrounded ['[', ']'] text [] (by decide) (by simp) (by simpa using hmap))
  | mapping => rfl
  | qualified package name =>
      obtain ⟨hpackage, hname⟩ := Bool.and_eq_true_iff.mp hnamed
      exact absurd hmap (hleaf (isNameText_of_selected hpackage hname))
  | verbatim text => exact absurd hmap (hleaf (isNameText_of_isIdentifier hnamed))

theorem includes_eq (hspaced : Spaced text type) (hnamed : type.isNamed) :
    Text.includes "map[".toList text = type.hasMapping := by
  rw [Bool.eq_iff_iff, Text.includes_iff]
  exact ⟨hspaced.hasMapping_of_infix hnamed, hspaced.infix_of_hasMapping⟩

theorem isBalanced (hspaced : Spaced text type) (hnamed : type.isNamed) : IsBalanced text := by
  induction hspaced with
  | surround hleft hright _ ih =>
      exact (isBalanced_of_isSpace hleft).append ((ih hnamed).append (isBalanced_of_isSpace hright))
  | pointer _ ih => exact (isBalanced_of_not_mem (by decide) (by decide) : IsBalanced ['*']).append (ih hnamed)
  | slice _ ih => exact (isBalanced_of_not_mem (by simp) (by simp) : IsBalanced []).bracketed.append (ih hnamed)
  | mapping _ _ ihKey ihValue =>
      obtain ⟨hkey, hvalue⟩ := Bool.and_eq_true_iff.mp hnamed
      have hword : IsBalanced "map".toList := isBalanced_of_not_mem (by decide) (by decide)
      simpa using hword.append ((ihKey hkey).bracketed.append (ihValue hvalue))
  | qualified package name =>
      obtain ⟨hpackage, hname⟩ := Bool.and_eq_true_iff.mp hnamed
      exact (isNameText_of_selected hpackage hname).isBalanced
  | verbatim text => exact (isNameText_of_isIdentifier hnamed).isBalanced

end Spaced

/-! ## Reading -/

theorem readWithin_congr {text other : Text} (htrim : Text.trim other = Text.trim text) (bound : Nat) :
    readWithin bound other = readWithin bound text := by
  cases bound with
  | zero => rfl
  | succ bound => rw [readWithin, readWithin, htrim]

theorem Spells.congr {text other : Text} {type : TypeExpr} (hspells : Spells text type)
    (htrim : Text.trim other = Text.trim text) : Spells other type := by
  have hread := hspells.readWithin (Nat.lt_succ_self _)
  exact spells_of_readWithin ((readWithin_congr htrim _).trans hread)

theorem trim_star (rest : Text) : Text.trim ('*' :: rest) = '*' :: Text.trimEnd rest :=
  @Text.IsTrimmed.trim_append ['*'] ⟨⟨'*', rfl, by decide⟩, ⟨'*', rfl, by decide⟩⟩ rest

theorem trim_brackets (rest : Text) : Text.trim ('[' :: ']' :: rest) = '[' :: ']' :: Text.trimEnd rest :=
  @Text.IsTrimmed.trim_append ['[', ']'] ⟨⟨'[', rfl, by decide⟩, ⟨']', rfl, by decide⟩⟩ rest

theorem trim_mapping (inside after : Text) :
    Text.trim ("map[".toList ++ (inside ++ ']' :: after)) =
      'm' :: 'a' :: 'p' :: '[' :: (inside ++ ']' :: Text.trimEnd after) := by
  have hlast : ("map[".toList ++ inside ++ [']']).getLast? = some ']' := List.getLast?_concat
  have hopening : Text.IsTrimmed ("map[".toList ++ inside ++ [']']) :=
    ⟨⟨'m', rfl, by decide⟩, ⟨']', hlast, by decide⟩⟩
  simpa using hopening.trim_append after

namespace Spaced

variable {text : Text} {type : TypeExpr}

theorem spells (hspaced : Spaced text type) (hnamed : type.isNamed) (hflat : type.hasFlatKeys) : Spells text type := by
  induction hspaced with
  | surround hleft hright _ ih => exact (ih hnamed hflat).congr (Text.trim_of_surrounded hleft hright)
  | pointer _ ih => exact .pointer (trim_star _) ((ih hnamed hflat).congr (Text.trim_trimEnd _))
  | slice _ ih => exact .slice (trim_brackets _) ((ih hnamed hflat).congr (Text.trim_trimEnd _))
  | @mapping inside after key value hkey _ ihKey ihValue =>
      obtain ⟨hkeyNamed, hvalueNamed⟩ := Bool.and_eq_true_iff.mp hnamed
      obtain ⟨hnone, hvalueFlat⟩ := Bool.and_eq_true_iff.mp hflat
      have hmapping : key.hasMapping = false := by simpa using hnone
      exact .mapping (trim_mapping inside after) ((hkey.isBalanced hkeyNamed).cutBracket_eq _)
        ((hkey.includes_eq hkeyNamed).trans hmapping) (ihKey hkeyNamed (hasFlatKeys_of_not_hasMapping hmapping))
        ((ihValue hvalueNamed hvalueFlat).congr (Text.trim_trimEnd after))
  | qualified package name =>
      obtain ⟨hpackage, hname⟩ := Bool.and_eq_true_iff.mp hnamed
      exact readName_selected hpackage hname ▸ (isNameText_of_selected hpackage hname).spells
  | verbatim text => exact readName_of_isIdentifier hnamed ▸ (isNameText_of_isIdentifier hnamed).spells

/-- The first map type with a map type in its key is refused. What stands before it has been read by then. -/
theorem readWithin_nested {bound : Nat} (hspaced : Spaced text type) (hnamed : type.isNamed)
    (hnested : type.hasFlatKeys = false) (hbound : text.length < bound) :
    ∃ whole key value, readWithin bound text = .error (.nestedMapKey (Text.trim whole)) ∧
      Spaced whole (.mapping key value) ∧ key.hasMapping ∧ whole <:+: text := by
  induction hspaced generalizing bound with
  | @surround left text right _ hleft hright _ ih =>
      have hlength : text.length < bound := by
        simp only [List.length_append] at hbound
        omega
      obtain ⟨whole, key, value, hread, hwhole, hkey, hinfix⟩ := ih hnamed hnested hlength
      refine ⟨whole, key, value, ?_, hwhole, hkey, hinfix.trans ⟨left, right, List.append_assoc ..⟩⟩
      rw [readWithin_congr (Text.trim_of_surrounded hleft hright), hread]
  | @pointer text _ _ ih =>
      obtain _ | bound := bound
      · omega
      obtain ⟨whole, key, value, hread, hwhole, hkey, hinfix⟩ := ih hnamed hnested (Nat.lt_of_succ_lt_succ hbound)
      refine ⟨whole, key, value, ?_, hwhole, hkey, hinfix.trans (List.suffix_cons ..).isInfix⟩
      rw [readWithin, trim_star]
      simp only [readWithin_congr (Text.trim_trimEnd text), hread]
      rfl
  | @slice text _ _ ih =>
      obtain _ | bound := bound
      · omega
      have hlength : text.length < bound := by
        simp only [List.length_cons] at hbound
        omega
      obtain ⟨whole, key, value, hread, hwhole, hkey, hinfix⟩ := ih hnamed hnested hlength
      refine ⟨whole, key, value, ?_, hwhole, hkey, hinfix.trans (List.suffix_append ['[', ']'] _).isInfix⟩
      rw [readWithin, trim_brackets]
      simp only [readWithin_congr (Text.trim_trimEnd text), hread]
      rfl
  | @mapping inside after key value hkey hvalue _ ihValue =>
      obtain ⟨hkeyNamed, hvalueNamed⟩ := Bool.and_eq_true_iff.mp hnamed
      obtain _ | bound := bound
      · omega
      have hlength : inside.length < bound ∧ after.length < bound := by
        simp only [List.length_append, List.length_cons] at hbound
        omega
      have hcut := (hkey.isBalanced hkeyNamed).cutBracket_eq (Text.trimEnd after)
      by_cases hmapping : key.hasMapping
      -- The key is tested before it is read, so that the outermost such map type is the one refused.
      · refine ⟨_, key, value, ?_, .mapping hkey hvalue, hmapping, List.infix_rfl⟩
        rw [readWithin, trim_mapping]
        simp only [hcut, hkey.includes_eq hkeyNamed, hmapping, if_true]
      · have hnone : key.hasMapping = false := by simpa using hmapping
        have hvalueNested : value.hasFlatKeys = false := by simpa [hasFlatKeys, hnone] using hnested
        have hkeyRead := (hkey.spells hkeyNamed (hasFlatKeys_of_not_hasMapping hnone)).readWithin hlength.1
        obtain ⟨whole, key', value', hread, hwhole, hkey', hinfix⟩ := ihValue hvalueNamed hvalueNested hlength.2
        refine ⟨whole, key', value', ?_, hwhole, hkey', hinfix.trans ?_⟩
        · rw [readWithin, trim_mapping]
          simp only [hcut, hkey.includes_eq hkeyNamed, hnone, Bool.false_eq_true, if_false, hkeyRead,
            readWithin_congr (Text.trim_trimEnd after), hread]
          rfl
        · exact ⟨"map[".toList ++ inside ++ [']'], [], by simp⟩
  | qualified | verbatim => cases hnested

end Spaced

/-- A type expression whose leaves are identifiers is read from every text that it has with white space around its
parts, if no map type stands in the key of another. Otherwise the text is refused, for a map type of it that has another
one in its key. -/
theorem read_spaced {text : Text} {type : TypeExpr} (hnamed : type.isNamed) (hspaced : Spaced text type) :
    (type.hasFlatKeys → read text = .ok type) ∧
      (¬ type.hasFlatKeys → ∃ whole key value, read text = .error (.nestedMapKey (Text.trim whole)) ∧
        Spaced whole (mapping key value) ∧ key.hasMapping ∧ whole <:+: text) := by
  constructor
  · intro hflat
    exact read_eq_ok.mpr (hspaced.spells hnamed hflat)
  · intro hnested
    exact hspaced.readWithin_nested hnamed (Bool.eq_false_iff.mpr hnested) (Nat.lt_succ_self _)

-- The word `map` is an identifier of its own in a key. In the second text the key of the outer map type is read before
-- the value is refused.
theorem read_spaced_keys :
    let flat : TypeExpr := .mapping (.slice (.verbatim "map".toList)) (.pointer (.qualified ['a'] "b.c".toList))
    let nested : TypeExpr := .mapping (.verbatim ['k']) (.slice (.mapping (.pointer flat) (.verbatim ['v'])))
    let text := " map[ []map\t] *\na.b.c".toList
    let other := "map[k] []map[*map[[]map]*a.b.c ]v".toList
    flat.isNamed ∧ Spaced text flat ∧ read text = .ok flat ∧ nested.isNamed ∧ Spaced other nested ∧
      ∃ whole key value, read other = .error (.nestedMapKey (Text.trim whole)) ∧ Spaced whole (mapping key value) ∧
        key.hasMapping ∧ whole <:+: other := by
  repeat rw [String.toList_ofList]
  intro flat nested text other
  have hblank : ∀ c ∈ [' '], Text.isSpace c := List.all_eq_true.mp (by decide)
  have htab : ∀ c ∈ ['\t'], Text.isSpace c := List.all_eq_true.mp (by decide)
  have hnewline : ∀ c ∈ ['\n'], Text.isSpace c := List.all_eq_true.mp (by decide)
  have hflat : Spaced text flat :=
    @Spaced.surround [' '] _ [] _ hblank (by simp) (.mapping
      (@Spaced.surround [' '] _ ['\t'] _ hblank htab (.slice (.verbatim "map".toList)))
      (@Spaced.surround [' '] _ [] _ hblank (by simp) (.pointer
        (@Spaced.surround ['\n'] _ [] _ hnewline (by simp) (.qualified ['a'] "b.c".toList)))))
  have hnested : Spaced other nested :=
    .mapping (.verbatim ['k']) (@Spaced.surround [' '] _ [] _ hblank (by simp) (.slice (.mapping
      (@Spaced.surround [] _ [' '] _ (by simp) hblank (.pointer (spaced_render flat))) (.verbatim ['v']))))
  have hnamed : flat.isNamed ∧ nested.isNamed := by decide
  exact ⟨hnamed.1, hflat, (read_spaced hnamed.1 hflat).1 (by decide), hnamed.2, hnested,
    (read_spaced hnamed.2 hnested).2 (by decide)⟩

end TypeExpr

end GoGraft
