import GoGraft.Proofs.Results
import GoGraft.TypeExpr

/-!
# Texts that spell a type expression

A text spells a type expression when the expression is read from it. White space around the parts is lost, so that the
printed text is another one, but it spells the same expression. The argument is about keys: a key was cut at the bracket
that closes it, so that its brackets are balanced and stay so when white space is left out, and it has no map type in it.
-/

namespace GoGraft

namespace Text

/-- There is a first and a last character, and neither is white space. -/
def IsTrimmed (t : Text) : Prop :=
  (∃ c ∈ t.head?, ¬ isSpace c) ∧ ∃ c ∈ t.getLast?, ¬ isSpace c

variable {t left right : Text}

theorem exists_trim (t : Text) :
    ∃ left right, t = left ++ (trim t ++ right) ∧ (∀ c ∈ left, isSpace c) ∧ ∀ c ∈ right, isSpace c := by
  refine ⟨t.takeWhile isSpace, ((trimStart t).reverse.takeWhile isSpace).reverse, ?_, ?_, ?_⟩
  · have hend : trim t ++ ((trimStart t).reverse.takeWhile isSpace).reverse = trimStart t := by
      rw [trim, trimEnd, ← List.reverse_append, List.takeWhile_append_dropWhile, List.reverse_reverse]
    rw [hend, trimStart, List.takeWhile_append_dropWhile]
  · intro c hc
    exact List.all_eq_true.mp List.all_takeWhile c hc
  · intro c hc
    exact List.all_eq_true.mp List.all_takeWhile c (List.mem_reverse.mp hc)

theorem trim_infix (t : Text) : trim t <:+: t := by
  obtain ⟨left, right, hsplit, -⟩ := exists_trim t
  exact ⟨left, right, by rw [List.append_assoc, ← hsplit]⟩

theorem head?_trim {c : Char} (hc : (trim t).head? = some c) : ¬ isSpace c := by
  have hstart : (trimStart t).head? = some c := by
    have htrim : trim t <+: trimStart t := by
      rw [← List.reverse_suffix]
      simpa [trim, trimEnd] using List.dropWhile_suffix isSpace
    obtain ⟨more, hmore⟩ := htrim
    rw [← hmore, List.head?_append, hc]
    rfl
  have hnot := List.head?_dropWhile_not isSpace t
  rw [trimStart] at hstart
  rw [hstart] at hnot
  simpa using hnot

theorem getLast?_trim {c : Char} (hc : (trim t).getLast? = some c) : ¬ isSpace c := by
  rw [trim, trimEnd, List.getLast?_reverse] at hc
  have hnot := List.head?_dropWhile_not isSpace (trimStart t).reverse
  rw [hc] at hnot
  simpa using hnot

theorem isTrimmed_trim (hne : trim t ≠ []) : (trim t).IsTrimmed :=
  ⟨⟨_, List.head?_eq_some_head hne, head?_trim (List.head?_eq_some_head hne)⟩,
    ⟨_, List.getLast?_eq_some_getLast hne, getLast?_trim (List.getLast?_eq_some_getLast hne)⟩⟩

namespace IsTrimmed

theorem trim_eq (htrimmed : t.IsTrimmed) : trim t = t := by
  obtain ⟨⟨first, hfirst, hfirstInk⟩, last, hlast, hlastInk⟩ := htrimmed
  have hstart : trimStart t = t := by
    cases t with
    | nil => rfl
    | cons c rest =>
        obtain rfl := Option.some.inj hfirst
        exact List.dropWhile_cons_of_neg hfirstInk
  rw [trim, hstart, trimEnd]
  rw [Option.mem_def, List.getLast?_eq_head?_reverse] at hlast
  cases hreverse : t.reverse with
  | nil => rw [List.reverse_eq_nil_iff.mp hreverse]; rfl
  | cons c rest =>
      rw [hreverse] at hlast
      obtain rfl := Option.some.inj hlast
      rw [List.dropWhile_cons_of_neg hlastInk, ← hreverse, List.reverse_reverse]

theorem append (hleft : ∃ c ∈ left.head?, ¬ isSpace c) (hright : right.IsTrimmed) : (left ++ right).IsTrimmed := by
  obtain ⟨first, hfirst, hfirstInk⟩ := hleft
  obtain ⟨-, last, hlast, hlastInk⟩ := hright
  exact ⟨⟨first, by simp [Option.mem_def.mp hfirst], hfirstInk⟩, ⟨last, by simp [Option.mem_def.mp hlast], hlastInk⟩⟩

end IsTrimmed

theorem not_isBlank_of_mem {c : Char} (hc : c ∈ t) (hink : ¬ isSpace c) : t.isBlank = false := by
  rw [isBlank, List.all_eq_false]
  exact ⟨c, hc, hink⟩

theorem includes_iff {needle text : Text} : includes needle text ↔ needle <:+: text := by
  induction text with
  | nil => rw [includes, List.isEmpty_iff, List.infix_nil]
  | cons c text ih => rw [includes, Bool.or_eq_true, List.isPrefixOf_iff_prefix, ih, List.infix_cons_iff]

end Text

namespace TypeExpr

section Brackets

/-- The closing bracket of what stands around the text is looked for behind it. -/
def IsBalanced (text : Text) : Prop :=
  ∀ depth rest, 0 < depth →
    cutBracket depth (text ++ rest) = (cutBracket depth rest).map fun cut => (text ++ cut.1, cut.2)

variable {left right text inside after : Text}

theorem isBalanced_of_not_mem (hopen : '[' ∉ text) (hclose : ']' ∉ text) : IsBalanced text := by
  intro depth rest hdepth
  induction text with
  | nil => simp
  | cons c text ih =>
      obtain ⟨hcOpen, hopen⟩ := not_or.mp (mt List.mem_cons.mpr hopen)
      obtain ⟨hcClose, hclose⟩ := not_or.mp (mt List.mem_cons.mpr hclose)
      have hother : (c == '[') = false ∧ (c == ']') = false :=
        ⟨beq_false_of_ne (Ne.symm hcOpen), beq_false_of_ne (Ne.symm hcClose)⟩
      rw [List.cons_append, cutBracket]
      simp [hother.1, hother.2, ih hopen hclose, Function.comp_def]

theorem isBalanced_of_isSpace (hspace : ∀ c ∈ text, Text.isSpace c) : IsBalanced text :=
  isBalanced_of_not_mem (fun hopen => absurd (hspace _ hopen) (by decide))
    (fun hclose => absurd (hspace _ hclose) (by decide))

/-- A cut that passes over a text is at some depth behind it, and a cut that begins deeper is deeper there by as much. -/
theorem exists_depth {depth : Nat} (hdepth : 0 < depth)
    (hcut : cutBracket depth (left ++ right) = some (left ++ inside, after)) :
    ∃ deeper, 0 < deeper ∧ cutBracket deeper right = some (inside, after) ∧
      ∀ more rest, cutBracket (depth + more) (left ++ rest) =
        (cutBracket (deeper + more) rest).map fun cut => (left ++ cut.1, cut.2) := by
  induction left generalizing depth with
  | nil => exact ⟨depth, hdepth, hcut, fun more rest => by simp⟩
  | cons c left ih =>
      rw [List.cons_append, cutBracket] at hcut
      split at hcut
      · cases hcut
      rename_i hopen
      simp only [Bool.and_eq_true, beq_iff_eq, not_and] at hopen
      obtain ⟨⟨found, behind⟩, hfound, hpair⟩ := Option.map_eq_some_iff.mp hcut
      obtain ⟨htext, rfl⟩ := Prod.mk.inj hpair
      obtain rfl := (List.cons.inj htext).2
      have hnext : 0 < if c == '[' then depth + 1 else if c == ']' then depth - 1 else depth := by
        grind
      obtain ⟨deeper, hdeeper, hright, hall⟩ := ih hnext hfound
      refine ⟨deeper, hdeeper, hright, fun more rest => ?_⟩
      rw [List.cons_append, cutBracket, if_neg (by grind)]
      have hshift : (if c == '[' then depth + more + 1 else if c == ']' then depth + more - 1 else depth + more) =
          (if c == '[' then depth + 1 else if c == ']' then depth - 1 else depth) + more := by
        grind
      simp only [hshift, hall more rest, Option.map_map, Function.comp_def, List.cons_append]

theorem cutBracket_eq_some {depth : Nat} (hcut : cutBracket depth text = some (inside, after)) :
    text = inside ++ ']' :: after := by
  induction text generalizing depth inside with
  | nil => cases hcut
  | cons c text ih =>
      rw [cutBracket] at hcut
      split at hcut
      · rename_i hclose
        simp only [Bool.and_eq_true, beq_iff_eq] at hclose
        obtain ⟨rfl, rfl⟩ := Prod.mk.inj (Option.some.inj hcut)
        rw [hclose.1, List.nil_append]
      · obtain ⟨⟨found, behind⟩, hfound, hpair⟩ := Option.map_eq_some_iff.mp hcut
        obtain ⟨rfl, rfl⟩ := Prod.mk.inj hpair
        rw [ih hfound, List.cons_append]

theorem eq_one_of_cutBracket {depth : Nat} (hcut : cutBracket depth (']' :: text) = some ([], after)) : depth = 1 := by
  rw [cutBracket] at hcut
  split at hcut
  · rename_i hclose
    simpa using hclose
  · obtain ⟨cut, -, hpair⟩ := Option.map_eq_some_iff.mp hcut
    cases (Prod.mk.inj hpair).1

theorem isBalanced_of_cutBracket (hcut : cutBracket 1 text = some (inside, after)) : IsBalanced inside := by
  have hsplit := cutBracket_eq_some hcut
  have hwhole : cutBracket 1 (inside ++ ']' :: after) = some (inside ++ [], after) := by
    rw [← hsplit, hcut, List.append_nil]
  obtain ⟨deeper, -, hclose, hall⟩ := exists_depth Nat.one_pos hwhole
  obtain rfl := eq_one_of_cutBracket hclose
  intro depth rest hdepth
  obtain ⟨more, rfl⟩ := Nat.exists_eq_add_of_le' hdepth
  rw [Nat.add_comm more 1]
  exact hall more rest

namespace IsBalanced

theorem append (hleft : IsBalanced left) (hright : IsBalanced right) : IsBalanced (left ++ right) := by
  intro depth rest hdepth
  rw [List.append_assoc, hleft depth _ hdepth, hright depth _ hdepth, Option.map_map]
  simp [Function.comp_def]

theorem cutBracket_eq (htext : IsBalanced text) (rest : Text) :
    cutBracket 1 (text ++ ']' :: rest) = some (text, rest) := by
  rw [htext 1 _ (by decide)]
  simp [cutBracket]

theorem bracketed (htext : IsBalanced text) : IsBalanced ('[' :: (text ++ [']'])) := by
  intro depth rest hdepth
  calc cutBracket depth ('[' :: (text ++ [']']) ++ rest)
      = (cutBracket (depth + 1) (text ++ ']' :: rest)).map fun cut => ('[' :: cut.1, cut.2) := by
        simp [cutBracket]
    _ = (cutBracket depth rest).map fun cut => ('[' :: (text ++ [']']) ++ cut.1, cut.2) := by
        rw [htext (depth + 1) _ (by omega), cutBracket]
        simp [Nat.ne_of_gt hdepth, Function.comp_def]

theorem of_append (hleft : IsBalanced left) (hboth : IsBalanced (left ++ right)) : IsBalanced right := by
  intro depth rest hdepth
  have hcut := hboth depth rest hdepth
  rw [List.append_assoc, hleft depth _ hdepth] at hcut
  apply Option.map_injective (f := fun cut : Text × Text => (left ++ cut.1, cut.2)) _
  · rw [hcut, Option.map_map]
    simp [Function.comp_def]
  · rintro ⟨first, second⟩ ⟨first', second'⟩ heq
    simpa using heq

theorem of_append_left (hright : IsBalanced right) (hboth : IsBalanced (left ++ right)) : IsBalanced left := by
  have hcut := hboth.cutBracket_eq []
  rw [List.append_assoc] at hcut
  obtain ⟨deeper, hdeeper, hrest, hall⟩ := exists_depth Nat.one_pos hcut
  have hone : deeper = 1 := by
    rw [hright deeper _ hdeeper] at hrest
    obtain ⟨⟨found, behind⟩, hfound, hpair⟩ := Option.map_eq_some_iff.mp hrest
    obtain ⟨htext, rfl⟩ := Prod.mk.inj hpair
    obtain rfl : found = [] := by simpa using htext
    exact eq_one_of_cutBracket hfound
  subst hone
  have hclosed : cutBracket 1 (left ++ [']']) = some (left, []) := by
    rw [hall 0]
    simp [cutBracket]
  exact isBalanced_of_cutBracket hclosed

theorem trim (htext : IsBalanced text) : IsBalanced (Text.trim text) := by
  obtain ⟨left, right, hsplit, hleft, hright⟩ := Text.exists_trim text
  rw [hsplit] at htext
  exact of_append_left (isBalanced_of_isSpace hright) (of_append (isBalanced_of_isSpace hleft) htext)

end IsBalanced

end Brackets

theorem render_pointer (target : TypeExpr) : (pointer target).render = '*' :: target.render := rfl

theorem render_slice (element : TypeExpr) : (slice element).render = '[' :: ']' :: element.render := rfl

theorem render_mapping (key value : TypeExpr) :
    (mapping key value).render = "map[".toList ++ (key.render ++ ']' :: value.render) :=
  List.append_assoc ..

theorem render_qualified (package name : Text) : (qualified package name).render = package ++ '.' :: name := rfl

theorem render_verbatim (text : Text) : (verbatim text).render = text := rfl

theorem readName_cases (text : Text) :
    readName text = verbatim text ∨ ∃ package name, readName text = qualified package name ∧
      text = package ++ '.' :: name ∧ isIdentifier package ∧ isSelector name := by
  unfold readName
  split
  · rename_i name hname
    dsimp only
    split
    · rename_i hnames
      refine .inr ⟨text.takeWhile (· != '.'), name, rfl, ?_, Bool.and_eq_true_iff.mp hnames⟩
      rw [← hname, List.takeWhile_append_dropWhile]
    · exact .inl rfl
  · exact .inl rfl

theorem render_readName (text : Text) : (readName text).render = text := by
  obtain hname | ⟨package, name, hname, htext, -⟩ := readName_cases text
  · rw [hname, render_verbatim]
  · rw [hname, render_qualified, htext]

/-- Both parts of a selected name have a character of the text at whose ends there is no white space. -/
theorem isWellFormed_readName {text : Text} (htrimmed : text.IsTrimmed) : (readName text).isWellFormed := by
  obtain ⟨⟨first, hfirst, hfirstInk⟩, last, hlast, hlastInk⟩ := htrimmed
  obtain hname | ⟨package, name, hname, rfl, hpackage, hselector⟩ := readName_cases text
  · rw [hname, isWellFormed, Text.not_isBlank_of_mem (List.mem_of_mem_head? hfirst) hfirstInk]
    rfl
  · have hfirst : first ∈ package := by
      cases package with
      | nil => cases hpackage
      | cons c rest => exact List.mem_of_mem_head? hfirst
    have hlast : last ∈ name := by
      rw [isSelector, Bool.and_eq_true, Bool.not_eq_true', List.isEmpty_eq_false_iff] at hselector
      have hend : (package ++ '.' :: name).getLast? = some (name.getLast hselector.1) := by
        simp [List.getLast?_cons, List.getLast?_eq_some_getLast hselector.1]
      obtain rfl := Option.some.inj (hend.symm.trans hlast)
      exact List.getLast_mem hselector.1
    rw [hname, isWellFormed, Text.not_isBlank_of_mem hfirst hfirstInk, Text.not_isBlank_of_mem hlast hlastInk]
    rfl

/-- What is read from a text. -/
inductive Spells : Text → TypeExpr → Prop where
  | pointer {text rest : Text} {target : TypeExpr} (htext : Text.trim text = '*' :: rest) (htarget : Spells rest target) :
      Spells text (pointer target)
  | slice {text rest : Text} {element : TypeExpr} (htext : Text.trim text = '[' :: ']' :: rest)
      (helement : Spells rest element) : Spells text (slice element)
  | mapping {text rest inside after : Text} {key value : TypeExpr}
      (htext : Text.trim text = 'm' :: 'a' :: 'p' :: '[' :: rest) (hcut : cutBracket 1 rest = some (inside, after))
      (hflat : Text.includes "map[".toList inside = false) (hkey : Spells inside key) (hvalue : Spells after value) : Spells text (mapping key value)
  | unclosed {text rest : Text} (htext : Text.trim text = 'm' :: 'a' :: 'p' :: '[' :: rest)
      (hcut : cutBracket 1 rest = none) : Spells text (verbatim (Text.trim text))
  | name {text : Text} (hne : Text.trim text ≠ []) (hstar : ¬ ['*'] <+: Text.trim text)
      (hslice : ¬ ['[', ']'] <+: Text.trim text) (hmap : ¬ "map[".toList <+: Text.trim text) :
      Spells text (readName (Text.trim text))

theorem spells_of_readWithin {bound : Nat} {text : Text} {type : TypeExpr}
    (hread : readWithin bound text = .ok type) : Spells text type := by
  induction bound generalizing text type with
  | zero => cases hread
  | succ bound ih =>
      rw [readWithin] at hread
      split at hread
      · cases hread
      · rename_i rest htext
        obtain ⟨target, htarget, rfl⟩ := map_eq_ok.mp hread
        exact .pointer htext (ih htarget)
      · rename_i rest htext
        obtain ⟨element, helement, rfl⟩ := map_eq_ok.mp hread
        exact .slice htext (ih helement)
      · rename_i rest htext
        split at hread
        · rename_i hcut
          obtain rfl := Except.ok.inj hread
          exact .unclosed htext hcut
        · rename_i inside after hcut
          split at hread
          · cases hread
          · rename_i hflat
            obtain ⟨key, hkey, hread⟩ := bind_eq_ok.mp hread
            obtain ⟨value, hvalue, hread⟩ := bind_eq_ok.mp hread
            obtain rfl := pure_eq_ok.mp hread
            exact .mapping htext hcut (Bool.eq_false_iff.mpr hflat) (ih hkey) (ih hvalue)
      · rename_i hne hstar hslice hmap
        obtain rfl := Except.ok.inj hread
        refine .name hne ?_ ?_ ?_
        · rintro ⟨rest, hrest⟩
          exact hstar rest hrest.symm
        · rintro ⟨rest, hrest⟩
          exact hslice rest hrest.symm
        · rintro ⟨rest, hrest⟩
          exact hmap rest hrest.symm

theorem Spells.readWithin {bound : Nat} {text : Text} {type : TypeExpr} (hspells : Spells text type)
    (hbound : text.length < bound) : readWithin bound text = .ok type := by
  induction hspells generalizing bound with
  | @pointer text rest target htext _ ih =>
      have hlength := (Text.trim_infix text).length_le
      rw [htext, List.length_cons] at hlength
      obtain _ | bound := bound
      · omega
      rw [TypeExpr.readWithin, htext]
      simp only [ih (show rest.length < bound by omega)]
      rfl
  | @slice text rest element htext _ ih =>
      have hlength := (Text.trim_infix text).length_le
      rw [htext, List.length_cons, List.length_cons] at hlength
      obtain _ | bound := bound
      · omega
      rw [TypeExpr.readWithin, htext]
      simp only [ih (show rest.length < bound by omega)]
      rfl
  | @mapping text rest inside after key value htext hcut hflat _ _ ihKey ihValue =>
      have hlength := (Text.trim_infix text).length_le
      simp only [htext, cutBracket_eq_some hcut, List.length_append, List.length_cons] at hlength
      obtain _ | bound := bound
      · omega
      rw [TypeExpr.readWithin, htext]
      simp only [hcut, hflat, ihKey (show inside.length < bound by omega),
        ihValue (show after.length < bound by omega)]
      rfl
  | @unclosed text rest htext hcut =>
      obtain _ | bound := bound
      · omega
      rw [TypeExpr.readWithin, htext]
      simp only [hcut]
  | @name text hne hstar hslice hmap =>
      obtain _ | bound := bound
      · omega
      rw [TypeExpr.readWithin]
      split
      · rename_i hnil
        exact absurd hnil hne
      · rename_i rest htext
        exact absurd ⟨rest, htext.symm⟩ hstar
      · rename_i rest htext
        exact absurd ⟨rest, htext.symm⟩ hslice
      · rename_i rest htext
        exact absurd ⟨rest, htext.symm⟩ hmap
      · rfl

theorem read_eq_ok {text : Text} {type : TypeExpr} : read text = .ok type ↔ Spells text type :=
  ⟨spells_of_readWithin, fun hspells => hspells.readWithin (Nat.lt_succ_self _)⟩

namespace Spells

variable {text : Text} {type : TypeExpr}

theorem isTrimmed_render (hspells : Spells text type) : type.render.IsTrimmed := by
  induction hspells with
  | pointer _ _ ih => exact @Text.IsTrimmed.append ['*'] _ ⟨'*', rfl, by decide⟩ ih
  | slice _ _ ih => exact @Text.IsTrimmed.append ['[', ']'] _ ⟨'[', rfl, by decide⟩ ih
  | @mapping _ _ _ _ key value _ _ _ _ _ _ ih =>
      have hrender : (TypeExpr.mapping key value).render = ("map[".toList ++ key.render ++ [']']) ++ value.render := by
        simp [render_mapping]
      rw [hrender]
      exact .append ⟨'m', rfl, by decide⟩ ih
  | unclosed htext _ => exact Text.isTrimmed_trim (by simp [htext])
  | name hne =>
      rw [render_readName]
      exact Text.isTrimmed_trim hne

theorem trim_render (hspells : Spells text type) : Text.trim type.render = type.render :=
  hspells.isTrimmed_render.trim_eq

theorem isWellFormed (hspells : Spells text type) : type.isWellFormed := by
  induction hspells with
  | pointer _ _ ih => exact ih
  | slice _ _ ih => exact ih
  | mapping _ _ _ _ _ ihKey ihValue => exact Bool.and_eq_true_iff.mpr ⟨ihKey, ihValue⟩
  | @unclosed text _ htext hcut =>
      obtain ⟨c, hc, hink⟩ := (Text.isTrimmed_trim (t := text) (by simp [htext])).1
      rw [TypeExpr.isWellFormed, Text.not_isBlank_of_mem (List.mem_of_mem_head? hc) hink]
      rfl
  | name hne => exact isWellFormed_readName (Text.isTrimmed_trim hne)

theorem isBalanced_render (hspells : Spells text type) (hbalanced : IsBalanced text) : IsBalanced type.render := by
  have hstar : IsBalanced ['*'] := isBalanced_of_not_mem (by decide) (by decide)
  have hpair : IsBalanced ['[', ']'] := (isBalanced_of_not_mem (by simp) (by simp) : IsBalanced []).bracketed
  have hword : IsBalanced "map".toList := isBalanced_of_not_mem (by decide) (by decide)
  induction hspells with
  | pointer htext _ ih =>
      have htrim := hbalanced.trim
      rw [htext] at htrim
      exact hstar.append (ih (hstar.of_append htrim))
  | slice htext _ ih =>
      have htrim := hbalanced.trim
      rw [htext] at htrim
      exact hpair.append (ih (hpair.of_append htrim))
  | @mapping _ _ inside after key value htext hcut _ _ _ ihKey ihValue =>
      have hinside := isBalanced_of_cutBracket hcut
      have htrim : IsBalanced ("map".toList ++ '[' :: (inside ++ [']']) ++ after) := by
        simpa [htext, cutBracket_eq_some hcut] using hbalanced.trim
      have hvalue := ihValue ((hword.append hinside.bracketed).of_append htrim)
      simpa [render_mapping] using (hword.append (ihKey hinside).bracketed).append hvalue
  | unclosed => exact hbalanced.trim
  | name =>
      rw [render_readName]
      exact hbalanced.trim

theorem infix_of_render (hspells : Spells text type) (hmap : "map[".toList <:+: type.render) :
    "map[".toList <:+: text := by
  have hstep {c : Char} {rest : Text} (hc : c ≠ 'm') (hmap : "map[".toList <:+: c :: rest) : "map[".toList <:+: rest := by
    obtain hfront | hrest := List.infix_cons_iff.mp hmap
    · exact absurd (List.cons_prefix_cons.mp hfront).1.symm hc
    · exact hrest
  induction hspells with
  | @pointer text rest target htext _ ih =>
      refine (ih (hstep (by decide) hmap)).trans (.trans ⟨['*'], [], ?_⟩ (Text.trim_infix text))
      simp [htext]
  | @slice text rest element htext _ ih =>
      refine (ih (hstep (by decide) (hstep (by decide) hmap))).trans (.trans ⟨['[', ']'], [], ?_⟩ (Text.trim_infix text))
      simp [htext]
  | @mapping text rest _ _ _ _ htext => exact .trans ⟨[], rest, htext.symm⟩ (Text.trim_infix text)
  | @unclosed text => exact hmap.trans (Text.trim_infix text)
  | @name text =>
      rw [render_readName] at hmap
      exact hmap.trans (Text.trim_infix text)

/-- What is printed spells what was read. -/
theorem spells_render (hspells : Spells text type) : Spells type.render type := by
  induction hspells with
  | pointer htext htarget ih => exact .pointer (pointer htext htarget).trim_render ih
  | slice htext helement ih => exact .slice (slice htext helement).trim_render ih
  | @mapping text rest inside after key value htext hcut hflat hkey hvalue ihKey ihValue =>
      have htrim := (mapping htext hcut hflat hkey hvalue).trim_render
      rw [render_mapping] at htrim ⊢
      refine .mapping htrim ((hkey.isBalanced_render (isBalanced_of_cutBracket hcut)).cutBracket_eq _) ?_ ihKey ihValue
      apply Bool.eq_false_iff.mpr
      intro hmap
      exact Bool.eq_false_iff.mp hflat (Text.includes_iff.mpr (hkey.infix_of_render (Text.includes_iff.mp hmap)))
  | @unclosed text rest htext hcut =>
      have htrim : Text.trim (Text.trim text) = Text.trim text := (unclosed htext hcut).trim_render
      have hagain := unclosed (htrim.trans htext) hcut
      rwa [htrim] at hagain
  | @name text hne hstar hslice hmap =>
      have htrim := (name hne hstar hslice hmap).trim_render
      rw [render_readName] at htrim ⊢
      have hagain := @name (Text.trim text)
      rw [htrim] at hagain
      exact hagain hne hstar hslice hmap

end Spells

/-- Every type expression that is read from a text is well-formed, and it is read again from the text that is printed
for it. -/
theorem read_render {text : Text} {type : TypeExpr} (hread : read text = .ok type) :
    type.isWellFormed ∧ read type.render = .ok type := by
  have hspells := read_eq_ok.mp hread
  exact ⟨hspells.isWellFormed, read_eq_ok.mpr hspells.spells_render⟩

-- White space around every part, a key with brackets of its own, and a map type that is never closed.
theorem read_render_spaced :
    let text := "\t map[ * [ 4 ] a . B[ C ] ] [] * map[ time.D ".toList
    let type : TypeExpr :=
      .mapping (.pointer (.verbatim "[ 4 ] a . B[ C ]".toList)) (.slice (.pointer (.verbatim "map[ time.D".toList)))
    read text = .ok type ∧ type.render = "map[*[ 4 ] a . B[ C ]][]*map[ time.D".toList ∧ type.isWellFormed ∧
      read type.render = .ok type := by
  repeat rw [String.toList_ofList]
  intro text type
  have hread : read text = .ok type := eq_ok_of_toOption (by decide +kernel)
  exact ⟨hread, by decide +kernel, read_render hread⟩

end TypeExpr

end GoGraft
