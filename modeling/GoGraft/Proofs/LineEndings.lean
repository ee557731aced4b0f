import Mathlib.Data.List.Induction
import GoGraft.Proofs.FieldInsertion

/-!
# Files with carriage returns

In a file whose lines end in a carriage return and a newline, every newline stays behind a carriage return when a field
is added or an import declaration is written anew. A new declaration has such lines too, but it is put between two
texts: where the one before it ends in a comment, the comment has taken the carriage return of its line, the newline
begins the text that follows, and the new declaration parts the two.
-/

namespace GoGraft

open Grammar

namespace Text

/-- Every newline has a carriage return before it, in a text that follows the character `before`. -/
def isPairedAfter (before : Option Char) : Text → Bool
  | [] => true
  | c :: rest => (c != '\n' || before == some '\r') && isPairedAfter (some c) rest

/-- Every newline has a carriage return before it. -/
def isPaired (text : Text) : Bool :=
  isPairedAfter none text

theorem isPairedAfter_append (before : Option Char) (left right : Text) :
    isPairedAfter before (left ++ right) =
      (isPairedAfter before left && isPairedAfter (left.getLast?.or before) right) := by
  induction left generalizing before with
  | nil => simp [isPairedAfter]
  | cons c left ih =>
      rw [List.cons_append, isPairedAfter, isPairedAfter, ih, Bool.and_assoc, List.getLast?_cons]
      cases left.getLast? <;> rfl

theorem isPaired_append_iff {left right : Text} :
    isPaired (left ++ right) ↔ isPaired left ∧ isPairedAfter left.getLast? right := by
  rw [isPaired, isPairedAfter_append, Option.or_none, Bool.and_eq_true]
  rfl

/-- A text is paired in itself, unless its first character ends a line that began before it. -/
theorem isPairedAfter_iff {before : Option Char} {text : Text} :
    isPairedAfter before text ↔ isPaired text ∨ before = some '\r' ∧ ∃ rest, text = '\n' :: rest ∧ isPaired rest := by
  cases text with
  | nil => simp [isPaired, isPairedAfter]
  | cons c rest =>
      by_cases hc : c = '\n'
      · subst hc
        have hrest : isPairedAfter (some '\n') rest = isPaired rest := by
          cases rest <;> simp [isPaired, isPairedAfter]
        simp [isPaired, isPairedAfter, hrest]
      · simp [isPaired, isPairedAfter, hc]

theorem isPaired_iff {text : Text} :
    isPaired text ↔ ∀ front back, text = front ++ '\n' :: back → front.getLast? = some '\r' := by
  constructor
  · rintro hpaired front back rfl
    obtain ⟨-, hafter⟩ := isPaired_append_iff.mp hpaired
    simp only [isPairedAfter, bne_self_eq_false, Bool.false_or, Bool.and_eq_true, beq_iff_eq] at hafter
    exact hafter.1
  · intro hpairs
    induction text using List.reverseRecOn with
    | nil => rfl
    | append_singleton front c ih =>
        refine isPaired_append_iff.mpr ⟨ih fun left right hfront => hpairs left (right ++ [c]) (by simp [hfront]), ?_⟩
        by_cases hc : c = '\n'
        · simp [isPairedAfter, hpairs front [] (by rw [hc])]
        · simp [isPairedAfter, hc]

theorem isPaired_of_after {before : Option Char} {text : Text} (hpaired : isPairedAfter before text)
    (hapart : before ≠ some '\r' ∨ text.head? ≠ some '\n') : isPaired text := by
  obtain hpaired | ⟨hbefore, rest, rfl, -⟩ := isPairedAfter_iff.mp hpaired
  · exact hpaired
  · simp [hbefore] at hapart

theorem isPaired_append {left right : Text} (hleft : isPaired left) (hright : isPaired right) :
    isPaired (left ++ right) :=
  isPaired_append_iff.mpr ⟨hleft, isPairedAfter_iff.mpr (.inl hright)⟩

theorem isPaired_of_not_mem {text : Text} (hnone : '\n' ∉ text) : isPaired text := by
  apply isPaired_iff.mpr
  rintro front back rfl
  simp at hnone

theorem isPaired_flatMap {α : Type} {f : α → Text} {l : List α} (hpaired : ∀ x ∈ l, isPaired (f x)) :
    isPaired (l.flatMap f) := by
  induction l with
  | nil => rfl
  | cons x l ih =>
      obtain ⟨hx, hl⟩ := List.forall_mem_cons.mp hpaired
      exact isPaired_append hx (ih hl)

theorem isPaired_insert {front added back : Text} (hpaired : isPaired (front ++ back)) (hadded : isPaired added)
    (hne : added ≠ []) :
    isPaired (front ++ (added ++ back)) ↔ (back.head? = some '\n' → added.getLast? = some '\r') := by
  obtain ⟨hfront, hback⟩ := isPaired_append_iff.mp hpaired
  have hlast : (front ++ added).getLast? = added.getLast? := by
    rw [List.getLast?_append, List.getLast?_eq_some_getLast hne]
    rfl
  rw [← List.append_assoc, isPaired_append_iff, hlast, and_iff_right (isPaired_append hfront hadded)]
  cases back with
  | nil => simp [isPairedAfter]
  | cons c rest =>
      simp only [isPairedAfter, Bool.and_eq_true] at hback ⊢
      rw [and_iff_left hback.2]
      by_cases hc : c = '\n' <;> simp [hc]

theorem isPaired_between {front added back : Text} (hpaired : isPaired (front ++ back)) (hadded : isPaired added)
    (hback : back.head? ≠ some '\n') : isPaired (front ++ (added ++ back)) := by
  cases added with
  | nil => exact hpaired
  | cons c rest => exact (isPaired_insert hpaired hadded (by simp)).mpr fun hc => absurd hc hback

/-- The line ending with a carriage return. -/
def crlf : Text :=
  ['\r', '\n']

theorem isPaired_crlf {line : Text} (hline : '\n' ∉ line) : isPaired (line ++ crlf) :=
  isPaired_append (isPaired_of_not_mem hline) rfl

theorem newline_not_mem_of_isIndent {indent : Text} (hindent : indent.all isIndent) : '\n' ∉ indent := by
  intro hmem
  exact absurd (List.all_eq_true.mp hindent '\n' hmem) (by decide)

end Text

open Text

/-! ## Texts that are written -/

theorem isPaired_renderDoc (doc : Option Text) {indent : Text} (hindent : '\n' ∉ indent) :
    isPaired (renderDoc doc indent crlf) := by
  apply isPaired_flatMap
  intro line hline
  have hnone := not_mem_lines hline
  apply isPaired_crlf
  split <;> simp [hindent, hnone]

/-- No name, type or tag of the field has a newline in it. -/
def NewField.IsOneLine (field : NewField) : Prop :=
  '\n' ∉ field.name ∧ '\n' ∉ field.type.render ∧ ∀ tag ∈ field.tag, '\n' ∉ tag

/-- No name, type or tag of the type has a newline in it. -/
def NewType.IsOneLine (type : NewType) : Prop :=
  '\n' ∉ type.name ∧
    match type.body with
    | .record fields => ∀ field ∈ fields, field.IsOneLine
    | .defined type | .aliased type => '\n' ∉ type.render

theorem NewField.newline_not_mem_tagText {field : NewField} (hfield : field.IsOneLine) : '\n' ∉ field.tagText := by
  unfold tagText
  split
  · simp
  · simp
  · rename_i tag _ htag
    have hnone := hfield.2.2 tag htag
    unfold renderTag
    split <;> simp [hnone]

theorem NewField.isPaired_render {field : NewField} {indent : Text} (hfield : field.IsOneLine)
    (hindent : '\n' ∉ indent) : isPaired (field.render indent crlf) := by
  have htag := newline_not_mem_tagText hfield
  obtain ⟨hname, htype, -⟩ := hfield
  have hline : '\n' ∉ indent ++ (field.name ++ ' ' :: (field.type.render ++ field.tagText)) := by
    simp [hindent, hname, htype, htag]
  rw [NewField.render_eq]
  refine isPaired_append (isPaired_renderDoc field.doc hindent) ?_
  simpa [NewField.line] using isPaired_crlf hline

theorem NewType.isPaired_render {type : NewType} (htype : type.IsOneLine) : isPaired (type.render crlf) := by
  obtain ⟨name, doc, body⟩ := type
  obtain ⟨hname, hbody⟩ := htype
  have hfront : isPaired (renderDoc doc [] crlf ++ ("type ".toList ++ name)) := by
    refine isPaired_append (isPaired_renderDoc doc (by simp)) (isPaired_append rfl (isPaired_of_not_mem hname))
  unfold NewType.render
  rw [List.append_assoc (renderDoc doc [] crlf)]
  refine isPaired_append hfront ?_
  cases body with
  | record fields =>
      refine isPaired_append (isPaired_append rfl (isPaired_flatMap ?_)) rfl
      exact fun field hfield => NewField.isPaired_render (hbody field hfield) (by decide)
  | defined type => exact isPaired_of_not_mem (by simpa using hbody)
  | aliased type => exact isPaired_append rfl (isPaired_of_not_mem hbody)

theorem newline_not_mem_renderImport {path : Text} {localName : Option Text} (hpath : '\n' ∉ path)
    (hname : ∀ name ∈ localName, '\n' ∉ name) : '\n' ∉ renderImport path localName := by
  cases localName with
  | none => simp [renderImport, hpath]
  | some name => simp [renderImport, hpath, hname name rfl]

theorem isPaired_newImportText {path : Text} {localName : Option Text} (hspec : '\n' ∉ renderImport path localName) :
    isPaired (newImportText path localName crlf) := by
  have hline : '\n' ∉ '\t' :: renderImport path localName := by
    simpa using hspec
  have hopening : isPaired (crlf ++ crlf ++ importOpening ++ crlf) := rfl
  have hlines := isPaired_append hopening (isPaired_append (isPaired_crlf hline) (by decide : isPaired [')']))
  simpa [newImportText] using hlines

/-! ## Texts that are edited -/

theorem isPaired_spliceBefore {front text back : Text} {close : Nat} {indent : Option Text} {entry : Text → Text}
    {mark : Char} (hpaired : isPaired (front ++ (text ++ back))) (hmark : (text.drop close).head? = some mark)
    (hne : mark ≠ '\n') (hindent : ∀ given ∈ indent, given.all isIndent)
    (hentry : ∀ given, '\n' ∉ given → isPaired (entry given)) :
    isPaired (front ++ (spliceBefore text close indent crlf entry ++ back)) := by
  obtain ⟨left, right, lead, after, htext, hsplice, hlead, hafter, white, hwhite, hright⟩ :=
    spliceBefore_parts text close indent crlf entry
  have hgiven := newline_not_mem_of_isIndent (@isIndent_spliceIndent text close indent hindent)
  generalize spliceIndent text close indent = given at hsplice hgiven
  have hadded : isPaired (lead ++ (entry given ++ after)) := by
    refine isPaired_append ?_ (isPaired_append (hentry given hgiven) ?_)
    · obtain rfl | rfl := hlead <;> rfl
    · exact isPaired_of_not_mem (newline_not_mem_of_isIndent hafter)
  have hhead : (right ++ back).head? ≠ some '\n' := by
    rw [hright, List.head?_append, List.head?_append, hmark]
    cases white with
    | nil => simpa using hne
    | cons c rest =>
        rintro hc
        obtain rfl := Option.some.inj hc
        exact newline_not_mem_of_isIndent hwhite (by simp)
  have hsplit : front ++ (spliceBefore text close indent crlf entry ++ back) =
      (front ++ left) ++ ((lead ++ (entry given ++ after)) ++ (right ++ back)) := by
    rw [hsplice]
    simp only [List.append_assoc]
  rw [htext, List.append_assoc, ← List.append_assoc] at hpaired
  rw [hsplit]
  exact isPaired_between hpaired hadded hhead

namespace Declaration.ReadAs

variable {declaration : Declaration} {gap rest tail : List Marked} {head : Marked} {frames final : List Frame}

theorem drop_mark {kept after : List Marked} {m : Marked}
    (hread : declaration.ReadAs gap head (kept ++ m :: after) tail frames final) :
    declaration.text.drop (sourceOf (gap ++ head :: kept)).length = m.text ++ sourceOf (after ++ tail) := by
  have htext : declaration.text = sourceOf (gap ++ head :: kept) ++ (m.text ++ sourceOf (after ++ tail)) := by
    rw [hread.text_eq]
    simp
  rw [htext, List.drop_left]

/-- A string ends in a quote, so that no line can end right after it. -/
theorem isPaired_extendImport_single {lead existing : List Marked} {front back spec : Text}
    (hread : declaration.ReadAs gap head (lead ++ existing) tail frames final) (hexisting : ImportRun existing)
    (hspec : '\n' ∉ spec) (hpaired : isPaired (front ++ (declaration.text ++ back))) :
    isPaired (front ++ (SourceFile.extendImport declaration.text (.single (sourceOf gap).length
      (sourceOf (gap ++ head :: lead)).length (sourceOf (gap ++ head :: (lead ++ existing))).length) crlf spec ++
        back)) := by
  have hcuts : ∀ m ∈ existing, m.lexeme.IsCut := fun m hm => hread.cuts.isCut m.lexeme (by
    simp only [List.map_append, List.map_cons, List.mem_append, List.mem_cons]
    exact .inl (.inr (.inr (.inr (List.mem_map_of_mem hm)))))
  obtain ⟨first, others, hrun, hfirst, hlast⟩ := hexisting.exists_ends
  have hhead : (sourceOf existing).head? ≠ some '\n' := by
    have hcut := hcuts first (by simp [hrun])
    have hne : first.text ≠ [] := hcut.text_ne_nil
    rw [hrun, sourceOf_cons, Text.head?_append _ hne]
    intro hnewline
    have hink := Scan.not_isSpace_head hcut (fun hwhite => hfirst (Scan.isTrivial_of_isWhite hwhite)) '\n' hnewline
    exact hink (by decide)
  -- The import ends in the quote of its path, so that no line ending is cut in two behind it.
  have hend : ∀ left : Text, (left ++ sourceOf existing).getLast? ≠ some '\r' := by
    intro left hreturn
    obtain ⟨last, hmem⟩ : ∃ last, existing.getLast? = some last := ⟨_, by rw [hrun]; rfl⟩
    obtain ⟨init, rfl⟩ := List.getLast?_eq_some_iff.mp hmem
    obtain ⟨text, c, htext, hink⟩ := (hcuts last (by simp)).endsInInk_of_string (hlast last (hrun ▸ hmem))
    have hsource : last.text = text ++ [c] := htext
    rw [sourceOf_append, sourceOf_cons, hsource] at hreturn
    simp only [sourceOf_nil, List.append_nil, ← List.append_assoc, List.getLast?_concat] at hreturn
    obtain rfl := Option.some.inj hreturn
    exact hink (by decide)
  have htext : front ++ (declaration.text ++ back) =
      (front ++ sourceOf gap) ++ (sourceOf (head :: lead) ++ (sourceOf existing ++ (sourceOf tail ++ back))) := by
    rw [hread.text_eq]
    simp
  have hopening : isPaired (importOpening ++ crlf ++ ['\t']) := rfl
  have hbetween : isPaired (crlf ++ ('\t' :: spec ++ crlf) ++ [')']) := by
    refine isPaired_append (isPaired_append rfl (isPaired_crlf ?_)) rfl
    simpa using hspec
  have hnew : front ++ (SourceFile.extendImport declaration.text (.single (sourceOf gap).length
      (sourceOf (gap ++ head :: lead)).length (sourceOf (gap ++ head :: (lead ++ existing))).length) crlf spec ++
        back) = (front ++ sourceOf gap) ++ ((importOpening ++ crlf ++ ['\t']) ++ (sourceOf existing ++
          ((crlf ++ ('\t' :: spec ++ crlf) ++ [')']) ++ (sourceOf tail ++ back)))) := by
    rw [hread.extendImport_single]
    simp
  rw [htext] at hpaired
  have hgap := (isPaired_append_iff.mp hpaired).1
  rw [← List.append_assoc, ← List.append_assoc] at hpaired
  obtain ⟨hkept, htail⟩ := isPaired_append_iff.mp hpaired
  have hexistingPaired := isPaired_of_after (isPaired_append_iff.mp hkept).2 (.inr hhead)
  have htailPaired := isPaired_of_after htail (.inl (hend _))
  rw [hnew]
  exact isPaired_append hgap (isPaired_append hopening
    (isPaired_append hexistingPaired (isPaired_append hbetween htailPaired)))

end Declaration.ReadAs

theorem Declaration.isPaired_extendImport {declaration : Declaration} {specs : List ImportSpec} {layout : ImportLayout}
    {front back spec : Text} (hread : declaration.IsRead) (hkind : declaration.kind = .imports specs layout)
    (hspec : '\n' ∉ spec) (hpaired : isPaired (front ++ (declaration.text ++ back))) :
    isPaired (front ++ (SourceFile.extendImport declaration.text layout crlf spec ++ back)) := by
  obtain ⟨gap, head, rest, tail, frames, final, hread⟩ := hread
  obtain ⟨lead, existing, rfl, -, hexisting, rfl⟩ | ⟨kept, close, indent, rfl, hclose, -, rfl, hindent⟩ :=
    hread.import_cases hkind
  · exact hread.isPaired_extendImport_single hexisting hspec hpaired
  · have hmark : close.text = [')'] := (hread.cuts.isCut close.lexeme (by simp)).text_of_closeParen hclose
    have hhead : (declaration.text.drop (sourceOf (gap ++ head :: kept)).length).head? = some ')' := by
      rw [hread.drop_mark, hmark]
      rfl
    have hentry : ∀ given, '\n' ∉ given → isPaired (given ++ spec ++ crlf) := fun given hgiven =>
      isPaired_crlf (by simp [hgiven, hspec])
    exact @isPaired_spliceBefore _ _ _ _ _ (fun given => given ++ spec ++ crlf) _ hpaired hhead (by decide) hindent hentry

theorem Declaration.isPaired_field {declaration : Declaration} {before others : List TypeSpec} {spec : TypeSpec}
    {record : Record} {field : NewField} {front back : Text} (hread : declaration.IsRead)
    (hspecs : declaration.typeSpecs = before ++ spec :: others) (hbody : spec.body = .record record)
    (hfield : field.IsOneLine) (hpaired : isPaired (front ++ (declaration.text ++ back))) :
    isPaired (front ++ (spliceBefore declaration.text record.close record.indent crlf
      (fun indent => field.render indent crlf) ++ back)) := by
  obtain ⟨gap, head, inner, body, white, close, trivia, after, tail, inside, bottom, final, hrecord⟩ :=
    hread.exists_hasRecord hspecs hbody
  have hmark : close.lexeme.text = ['\x7d'] := by
    simpa [Lexeme.marks] using (hrecord.readAs.cuts.isCut close.lexeme (by simp)).mark hrecord.close_kind
  have hhead : (declaration.text.drop record.close).head? = some '\x7d' := by
    rw [hrecord.close_eq, hrecord.readAs.drop_mark, Marked.text, hmark]
    rfl
  exact isPaired_spliceBefore hpaired hhead (by decide) hrecord.indent fun given hgiven =>
    NewField.isPaired_render hfield hgiven

/-! ## Files that are edited -/

namespace SourceFile

variable {file edited : SourceFile}

theorem render_split (file : SourceFile) (earlier later : List Declaration) (declaration : Declaration) :
    render { file with declarations := earlier ++ declaration :: later } =
      (file.header ++ earlier.flatMap Declaration.text) ++
        (declaration.text ++ (later.flatMap Declaration.text ++ file.trailer)) := by
  simp [render]

/-- The text of a file from one of its declarations on. -/
def textFrom (file : SourceFile) (index : Nat) : Text :=
  (file.declarations.drop index).flatMap Declaration.text ++ file.trailer

theorem render_eq (file : SourceFile) (index : Nat) :
    file.render = (file.header ++ (file.declarations.take index).flatMap Declaration.text) ++ file.textFrom index := by
  rw [textFrom, ← List.append_assoc, List.append_assoc file.header, ← List.flatMap_append, List.take_append_drop]
  rfl

theorem isPaired_rewritten {earlier later : List Declaration} {old new : Declaration} {text : Text}
    (hsplit : file.declarations = earlier ++ old :: later) (hparse : Declaration.parse text = .ok new)
    (hpaired : isPaired file.render)
    (hkept : ∀ front back, isPaired (front ++ (old.text ++ back)) → isPaired (front ++ (text ++ back))) :
    isPaired (render { file with declarations := earlier ++ new :: later }) := by
  have hrender : file.render = render { file with declarations := earlier ++ old :: later } := by rw [← hsplit]
  rw [hrender, render_split] at hpaired
  rw [render_split, (Declaration.isRead_of_parse hparse).2]
  exact hkept _ _ hpaired

theorem isPaired_inserted {index : Nat} {new : Declaration} {text : Text}
    (hparse : Declaration.parse text = .ok new) (hpaired : isPaired file.render) (htext : isPaired text)
    (hne : text ≠ []) :
    isPaired (file.insert index new).render ↔ ((file.textFrom index).head? = some '\n' → text.getLast? = some '\r') := by
  rw [insert, render_split, (Declaration.isRead_of_parse hparse).2]
  rw [render_eq file index] at hpaired
  exact isPaired_insert hpaired htext hne

/-- In a file whose lines end in a carriage return and a newline, the edits that write a declaration anew keep that.
A new declaration keeps it unless the text after it begins with a newline, whose carriage return stays before the new
declaration. -/
theorem isPaired_of_edit {text : Text} (hparse : parse text = .ok file) (hpaired : isPaired file.render)
    (hending : file.lineEnding = crlf) :
    (∀ location field edited, field.IsOneLine → file.appendField location field = .ok edited →
      isPaired edited.render) ∧
    (∀ path localName edited, '\n' ∉ path → (∀ name ∈ localName, '\n' ∉ name) →
      file.appendImport path localName = .ok edited →
        (isPaired edited.render ↔ (file.extendableImport? = none →
          (file.textFrom file.leadingImports).head? ≠ some '\n'))) ∧
    ∀ index type edited position, type.IsOneLine → file.insertType index type = .ok (edited, position) →
      (isPaired edited.render ↔ ((file.textFrom index).head? = some '\n' →
        (type.render crlf).getLast? = some '\r')) := by
  have hread := isRead_of_parse hparse
  refine ⟨?_, ?_, ?_⟩
  · intro location field edited hfield happend
    obtain ⟨earlier, old, later, before, spec, others, record, new, hsplit, -, hspecs, hbody, hnew, rfl⟩ :=
      appendField_cases happend
    rw [hending] at hnew
    refine isPaired_rewritten hsplit hnew hpaired fun front back => ?_
    exact Declaration.isPaired_field (hread old (by simp [hsplit])) hspecs hbody hfield
  · intro path localName edited hpath hname happend
    have hspec := newline_not_mem_renderImport hpath hname
    obtain ⟨new, hnone, hnew, rfl⟩ | ⟨earlier, old, later, specs, layout, new, hsplit, -, hold, hkind, hnew, rfl⟩ :=
      appendImport_cases happend
    · rw [hending] at hnew
      have hlast : (newImportText path localName crlf).getLast? = some ')' := List.getLast?_concat
      rw [isPaired_inserted hnew hpaired (isPaired_newImportText hspec) (by simp [newImportText]), hlast]
      constructor
      · intro hreturn _ hhead
        exact absurd (hreturn hhead) (by decide)
      · intro hapart hhead
        exact absurd hhead (hapart (extendableImport?_eq_none.mpr hnone))
    · rw [hending] at hnew
      have hfound : file.extendableImport? ≠ none := by
        rw [Ne, extendableImport?_eq_none]
        exact fun hnone => hnone old (by simp [hsplit]) hold
      simp only [hfound, false_implies, iff_true]
      refine isPaired_rewritten hsplit hnew hpaired fun front back => ?_
      exact Declaration.isPaired_extendImport (hread old (by simp [hsplit])) hkind hspec
  · intro index type edited position htype hinsert
    obtain ⟨new, hnew, rfl⟩ := insertType_cases hinsert
    rw [hending] at hnew
    have hne : type.render crlf ≠ [] := by simp [NewType.render]
    have hlast : (newTypeText type crlf).getLast? = (type.render crlf).getLast? := by
      rw [newTypeText, List.getLast?_append, List.getLast?_eq_some_getLast hne]
      rfl
    have htext : isPaired (newTypeText type crlf) := isPaired_append rfl (NewType.isPaired_render htype)
    rw [isPaired_inserted hnew hpaired htext (by simp [newTypeText, hne]), hlast]

theorem isPaired_of_edit_comment :
    let text := "package a\r\n\r\ntype A struct \x7b\r\n\x7d // a\r\n\r\ntype B int\r\n".toList
    let field : NewField := ⟨['X'], .verbatim "int".toList, none, some "One\nTwo".toList⟩
    ∃ file, parse text = .ok file ∧ isPaired file.render ∧ file.lineEnding = crlf ∧
      (∃ edited, file.appendField ⟨0, 0⟩ field = .ok edited ∧ isPaired edited.render) ∧
      (∃ edited, file.appendImport "fmt".toList none = .ok edited ∧ isPaired edited.render) ∧
      (∃ edited, file.insertType 2 (.record ['N']) = .ok (edited, 2) ∧ isPaired edited.render) ∧
      ∃ edited, file.insertType 1 (.record ['N']) = .ok (edited, 1) ∧ ¬ isPaired edited.render := by
  repeat rw [String.toList_ofList]
  intro text field
  have hrun : (parse text).toOption.any fun file =>
      isPaired file.render && decide (file.lineEnding = crlf) &&
        (file.appendField ⟨0, 0⟩ field).toOption.isSome && (file.appendImport "fmt".toList none).toOption.isSome &&
        decide ((file.textFrom file.leadingImports).head? = some '\r') &&
        decide ((file.insertType 2 (.record ['N'])).toOption.map Prod.snd = some 2) &&
        decide ((file.textFrom 2).head? = some '\r') &&
        decide ((file.insertType 1 (.record ['N'])).toOption.map Prod.snd = some 1) &&
        decide ((file.textFrom 1).head? = some '\n') := by
    decide +kernel
  obtain ⟨file, hfile, hrun⟩ := (Option.any_eq_true ..).mp hrun
  simp only [Bool.and_eq_true, decide_eq_true_eq] at hrun
  obtain ⟨⟨⟨⟨⟨⟨⟨⟨hpaired, hending⟩, hfield⟩, himport⟩, hleading⟩, hlast⟩, hend⟩, hmiddle⟩, hnext⟩ := hrun
  obtain ⟨first, hfirst⟩ := Option.isSome_iff_exists.mp hfield
  obtain ⟨second, hsecond⟩ := Option.isSome_iff_exists.mp himport
  obtain ⟨⟨third, _⟩, hthird, rfl⟩ := Option.map_eq_some_iff.mp hlast
  obtain ⟨⟨fourth, _⟩, hfourth, rfl⟩ := Option.map_eq_some_iff.mp hmiddle
  have hparse := eq_ok_of_toOption hfile
  have hfirst := eq_ok_of_toOption hfirst
  have hsecond := eq_ok_of_toOption hsecond
  have hthird := eq_ok_of_toOption hthird
  have hfourth := eq_ok_of_toOption hfourth
  have htype : (NewType.record ['N']).IsOneLine := ⟨by decide, by simp [NewType.record]⟩
  obtain ⟨hfields, himports, htypes⟩ := isPaired_of_edit hparse hpaired hending
  refine ⟨file, hparse, hpaired, hending, ⟨first, hfirst, ?_⟩, ⟨second, hsecond, ?_⟩, ⟨third, hthird, ?_⟩, fourth,
    hfourth, ?_⟩
  · exact hfields _ field first ⟨by decide, by decide, nofun⟩ hfirst
  · rw [himports "fmt".toList none second (by decide) nofun hsecond, hleading]
    exact fun _ => by decide
  · rw [htypes 2 _ third _ htype hthird, hend]
    exact fun hnewline => absurd hnewline (by decide)
  · rw [htypes 1 _ fourth _ htype hfourth, hnext]
    exact fun hreturn => absurd (hreturn rfl) (by decide)

end SourceFile

end GoGraft
