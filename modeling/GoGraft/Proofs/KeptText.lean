import GoGraft.Proofs.Layouts
import GoGraft.Proofs.LineEndings

/-!
# What edits keep of the text

A field, a type, and an import that goes between parentheses are put between two parts of the text of a file, and the
two parts stay as they are. Only an import declaration without parentheses is written anew. It keeps its import and what
stands around it, but not what stands between its keyword and its import: white space there can be left out, and a
comment there is lost.
-/

namespace GoGraft

open Grammar

namespace Text

variable {added old new : Text}

/-- A text comes from another by putting `added` between two parts of it. -/
def Inserts (added old new : Text) : Prop :=
  ∃ front back, old = front ++ back ∧ new = front ++ (added ++ back)

theorem Inserts.between (hinserts : Inserts added old new) (before after : Text) :
    Inserts added (before ++ (old ++ after)) (before ++ (new ++ after)) := by
  obtain ⟨front, back, rfl, rfl⟩ := hinserts
  exact ⟨before ++ front, back ++ after, by simp, by simp⟩

/-- The characters of a text that are no white space. -/
def ink (text : Text) : Text :=
  text.filter fun c => !isSpace c

@[simp]
theorem ink_append (left right : Text) : ink (left ++ right) = ink left ++ ink right :=
  List.filter_append ..

theorem ink_eq_nil {white : Text} (hwhite : ∀ c ∈ white, isSpace c) : ink white = [] := by
  apply List.filter_eq_nil_iff.mpr
  intro c hc
  simp [hwhite c hc]

end Text

open Text

theorem inserts_spliceBefore (text : Text) (close : Nat) (indent : Option Text) (newline : Text) (entry : Text → Text) :
    ∃ added, Inserts added text (spliceBefore text close indent newline entry) ∧
      entry (spliceIndent text close indent) <:+: added := by
  obtain ⟨front, back, lead, after, htext, hsplice, -⟩ := spliceBefore_parts text close indent newline entry
  refine ⟨lead ++ entry (spliceIndent text close indent) ++ after, ⟨front, back, htext, ?_⟩, lead, after, rfl⟩
  rw [hsplice]
  simp only [List.append_assoc]

namespace SourceFile

variable {file edited : SourceFile}

/-- The first import declaration that can take an import has no parentheses. -/
def convertsImport (file : SourceFile) : Bool :=
  (file.declarations.find? Declaration.isExtendable).any fun declaration => !declaration.isGrouped

/-- What is found first by `appendImport` decides whether a declaration gets parentheses. -/
theorem convertsImport_eq {earlier later : List Declaration} {old : Declaration}
    (hfile : file.declarations = earlier ++ old :: later)
    (hearlier : ∀ declaration ∈ earlier, ¬ declaration.isExtendable) (hold : old.isExtendable) :
    file.convertsImport = !old.isGrouped := by
  have hnone : earlier.find? Declaration.isExtendable = none := List.find?_eq_none.mpr hearlier
  rw [convertsImport, hfile, List.find?_append, hnone, Option.none_or, List.find?_cons_of_pos hold]
  rfl

theorem inserts_insert {text : Text} {new : Declaration} (index : Nat) (hparse : Declaration.parse text = .ok new) :
    Inserts text file.render (file.insert index new).render := by
  refine ⟨_, file.textFrom index, render_eq file index, ?_⟩
  rw [insert, render_split, (Declaration.isRead_of_parse hparse).2]
  simp [textFrom]

theorem render_rewritten {earlier later : List Declaration} {old new : Declaration} {text : Text}
    (hfile : file.declarations = earlier ++ old :: later) (hparse : Declaration.parse text = .ok new) :
    ∃ before after, file.render = before ++ (old.text ++ after) ∧
      render { file with declarations := earlier ++ new :: later } = before ++ (text ++ after) := by
  have hrender := render_split file earlier later old
  rw [← hfile] at hrender
  refine ⟨_, _, hrender, ?_⟩
  rw [render_split, (Declaration.isRead_of_parse hparse).2]

theorem inserts_rewritten {earlier later : List Declaration} {old new : Declaration} {added text : Text}
    (hfile : file.declarations = earlier ++ old :: later) (hparse : Declaration.parse text = .ok new)
    (hinserts : Inserts added old.text text) :
    Inserts added file.render (render { file with declarations := earlier ++ new :: later }) := by
  obtain ⟨before, after, hold, hnew⟩ := render_rewritten hfile hparse
  rw [hold, hnew]
  exact hinserts.between before after

theorem inserts_appendField {location : TypeLocation} {field : NewField} (hread : file.IsRead)
    (happend : file.appendField location field = .ok edited) :
    ∃ added indent, Inserts added file.render edited.render ∧ indent.all isIndent ∧
      field.render indent file.lineEnding <:+: added := by
  obtain ⟨earlier, old, later, before, spec, others, record, new, hfile, -, hspecs, hbody, hparse, rfl⟩ :=
    appendField_cases happend
  obtain ⟨gap, head, front, body, white, close, trivia, after, tail, inside, bottom, final, hrecord⟩ :=
    (hread old (by simp [hfile])).exists_hasRecord hspecs hbody
  obtain ⟨added, hinserts, hentry⟩ := inserts_spliceBefore old.text record.close record.indent file.lineEnding
    fun indent => field.render indent file.lineEnding
  exact ⟨added, _, inserts_rewritten hfile hparse hinserts, isIndent_spliceIndent hrecord.indent, hentry⟩

theorem inserts_insertType {index position : Nat} {type : NewType}
    (hinsert : file.insertType index type = .ok (edited, position)) :
    ∃ added, Inserts added file.render edited.render ∧ type.render file.lineEnding <:+: added := by
  obtain ⟨new, hparse, rfl⟩ := insertType_cases hinsert
  exact ⟨_, inserts_insert index hparse, _, [], List.append_nil _⟩

theorem inserts_appendImport {path : Text} {localName : Option Text} (hkeeps : ¬ file.convertsImport)
    (happend : file.appendImport path localName = .ok edited) :
    ∃ added, Inserts added file.render edited.render ∧ renderImport path localName <:+: added := by
  obtain ⟨new, -, hparse, rfl⟩ | ⟨earlier, old, later, specs, layout, new, hfile, hearlier, hold, hkind, hparse,
    rfl⟩ := appendImport_cases happend
  · refine ⟨_, inserts_insert _ hparse, ?_⟩
    exact ⟨file.lineEnding ++ file.lineEnding ++ importOpening ++ file.lineEnding ++ ['\t'], file.lineEnding ++ [')'],
      by simp [newImportText]⟩
  · rw [convertsImport_eq hfile hearlier hold, Declaration.isGrouped, hkind] at hkeeps
    cases layout with
    | single => exact absurd rfl hkeeps
    | grouped close indent =>
        obtain ⟨added, hinserts, hentry⟩ := inserts_spliceBefore old.text close indent file.lineEnding
          fun indent => indent ++ renderImport path localName ++ file.lineEnding
        exact ⟨added, inserts_rewritten hfile hparse hinserts, .trans ⟨_, _, rfl⟩ hentry⟩

end SourceFile

namespace IndexedFile

variable {start edited : IndexedFile} {text : Text}

/-- What an edit writes, if it writes lines of some indentation. -/
def Edit.entry (indent newline : Text) : Edit → Text
  | .appendField _ field => field.render indent newline
  | .insertType _ type => type.render newline
  | .appendImport path localName => renderImport path localName

/-- The edit puts parentheses around an import of the file. -/
def Edit.converts (file : SourceFile) : Edit → Bool
  | .appendImport _ _ => file.convertsImport
  | _ => false

theorem Edit.entry_ne_nil (edit : Edit) (indent newline : Text) : edit.entry indent newline ≠ [] := by
  cases edit with
  | appendField location field => simp [entry, NewField.render]
  | insertType index type => simp [entry, NewType.render]
  | appendImport path localName => cases localName <;> simp [entry, renderImport]

/-- After any run of edits, an edit that succeeds leaves the text of the file as it is and puts one text between two
parts of it, with what the edit writes, unless it puts parentheses around an import. -/
theorem render_of_perform {edit : Edit} {edits : List Edit} (hparse : parse text = .ok start)
    (hperform : edit.perform (start.run edits) = ⟨edited, .ok ()⟩) (hkeeps : ¬ edit.converts (start.run edits).file) :
    ∃ front back added indent, (start.run edits).file.render = front ++ back ∧
      edited.file.render = front ++ (added ++ back) ∧ added ≠ [] ∧ indent.all isIndent ∧
      edit.entry indent (start.run edits).file.lineEnding <:+: added := by
  have hread := (isSound_of_run hparse edits).read
  generalize start.run edits = indexed at hperform hkeeps hread
  have hadded : ∃ added indent, Inserts added indexed.file.render edited.file.render ∧ indent.all isIndent ∧
      edit.entry indent indexed.file.lineEnding <:+: added := by
    cases (makes_of_perform hperform).1 with
    | appendField happend => exact SourceFile.inserts_appendField hread happend
    | insertType hinsert =>
        obtain ⟨added, hinserts, hentry⟩ := SourceFile.inserts_insertType hinsert
        exact ⟨added, [], hinserts, rfl, hentry⟩
    | appendImport happend =>
        obtain ⟨added, hinserts, hentry⟩ := SourceFile.inserts_appendImport hkeeps happend
        exact ⟨added, [], hinserts, rfl, hentry⟩
  obtain ⟨added, indent, ⟨front, back, hold, hnew⟩, hindent, hentry⟩ := hadded
  refine ⟨front, back, added, indent, hold, hnew, ?_, hindent, hentry⟩
  rintro rfl
  exact edit.entry_ne_nil _ _ (List.infix_nil.mp hentry)

-- The brace stands on the line of the struct, in a file with carriage returns that gets a type before it. The import
-- finds an import of C, which it passes over, and a group without an import.
theorem render_of_perform_one_line :
    let text := "package a\r\n\r\nimport \"C\"\r\nimport ()\r\n\r\ntype A struct\x7bF int\x7d\r\n".toList
    let edits : List Edit := [.insertType 2 (.record ['B'])]
    let field : Edit := .appendField ⟨3, 0⟩ ⟨['G'], .verbatim "int".toList, some "g".toList, some ['d']⟩
    let fmt : Edit := .appendImport "fmt".toList none
    ∀ edit ∈ [field, fmt], ∃ start edited, parse text = .ok start ∧
      edit.perform (start.run edits) = ⟨edited, .ok ()⟩ ∧ ¬ edit.converts (start.run edits).file ∧
      ∃ front back added indent, (start.run edits).file.render = front ++ back ∧
        edited.file.render = front ++ (added ++ back) ∧ added ≠ [] ∧ indent.all isIndent ∧
        edit.entry indent (start.run edits).file.lineEnding <:+: added := by
  repeat rw [String.toList_ofList]
  intro text edits field fmt edit hedit
  have hrun : [field, fmt].all fun edit => (parse text).toOption.any fun start =>
      (edit.perform (start.run edits)).toOption.isSome && !edit.converts (start.run edits).file := by
    decide
  obtain ⟨start, hstart, hrun⟩ := (Option.any_eq_true ..).mp (List.all_eq_true.mp hrun edit hedit)
  obtain ⟨hsome, hkeeps⟩ := Bool.and_eq_true_iff.mp hrun
  obtain ⟨⟨edited, ⟨⟩⟩, hedited⟩ := Option.isSome_iff_exists.mp hsome
  have hparse := eq_ok_of_toOption hstart
  have hperform := Attempt.eq_of_toOption hedited
  have hkeeps : ¬ edit.converts (start.run edits).file := by simpa using hkeeps
  exact ⟨start, edited, hparse, hperform, hkeeps, render_of_perform hparse hperform hkeeps⟩

end IndexedFile

/-! ## Parentheses around an import -/

/-- Where parentheses come around an import, the ink before the keyword and after the import does not count. -/
theorem ink_sublist_converted (front gap existing back spec : Text) {newline : Text} (hnewline : IsLineEnding newline) :
    (ink (front ++ ("import".toList ++ (gap ++ (existing ++ back))))).Sublist
        (ink (front ++ (importOpening ++ (newline ++ '\t' :: (existing ++ (newline ++ '\t' :: (spec ++ (newline ++
          ')' :: back)))))))) ↔
      (ink gap ++ ink existing).Sublist ('(' :: (ink existing ++ ink spec ++ [')'])) := by
  have hwhite := ink_eq_nil (isSpace_tab hnewline.isSpace)
  have hline := ink_eq_nil hnewline.isSpace
  have hold : ink (front ++ ("import".toList ++ (gap ++ (existing ++ back)))) =
      (ink front ++ "import".toList) ++ ((ink gap ++ ink existing) ++ ink back) := by
    have hword : ink "import".toList = "import".toList := by decide
    simp only [ink_append, hword, List.append_assoc]
  have hnew : ink (front ++ (importOpening ++ (newline ++ '\t' :: (existing ++ (newline ++ '\t' :: (spec ++ (newline ++
      ')' :: back))))))) =
        (ink front ++ "import".toList) ++ ('(' :: (ink existing ++ ink spec ++ [')']) ++ ink back) := by
    have hword : ink importOpening = "import".toList ++ ['('] := by decide
    have hclose : ink [')'] = [')'] := by decide
    calc _ = ink (front ++ importOpening ++ (newline ++ ['\t']) ++ existing ++ (newline ++ ['\t']) ++ spec ++ newline ++
          [')'] ++ back) := by simp only [List.append_assoc, List.cons_append, List.nil_append]
      _ = _ := by
          rw [ink_append, ink_append, ink_append, ink_append, ink_append, ink_append, ink_append, ink_append, hwhite,
            hline, hword, hclose]
          simp
  rw [hold, hnew, List.append_sublist_append_left, List.append_sublist_append_right]

/-- A declaration that gets parentheses keeps its import and what stands before and after it. -/
theorem Declaration.IsRead.extendImport_single {declaration : Declaration} {specs : List ImportSpec}
    {layout : ImportLayout} (hread : declaration.IsRead) (hkind : declaration.kind = .imports specs layout)
    (hsingle : ¬ declaration.isGrouped) (newline spec : Text) :
    ∃ front gap existing back, declaration.text = front ++ ("import".toList ++ (gap ++ (existing ++ back))) ∧
      SourceFile.extendImport declaration.text layout newline spec =
        front ++ (importOpening ++ (newline ++ '\t' :: (existing ++ (newline ++ '\t' :: (spec ++ (newline ++
          ')' :: back)))))) ∧
      (∀ lexeme ∈ Scan.lexemes gap, Scan.isTrivial lexeme.kind) ∧
      ∃ old, specs = [old] ∧ old.IsWritten existing := by
  obtain ⟨before, head, rest, tail, frames, final, hread⟩ := hread
  obtain ⟨lead, existing, rfl, hlead, hexisting, rfl⟩ | ⟨kept, close, indent, -, -, -, rfl, -⟩ :=
    hread.import_cases hkind
  · have hhead := hread.head_eq_importWord (hread.importWord_of_imports hkind).1
    have hcuts : Scan.Cuts (lead.map Marked.lexeme) none := by
      apply @Scan.Cuts.of_infix none ((before ++ [head]).map Marked.lexeme) _ ((existing ++ tail).map Marked.lexeme)
      simpa using hread.cuts
    refine ⟨sourceOf before, sourceOf lead, sourceOf existing, sourceOf tail, ?_, ?_, ?_,
      hread.exists_written hkind hlead hexisting⟩
    · rw [hread.text_eq, hhead]
      simp [importWord, Marked.text]
    · rw [hread.extendImport_single]
      simp
    · rw [← source_map_lexeme, Scan.lexemes_source hcuts]
      exact List.forall_mem_map.mpr fun m hm => (hlead m hm).2
  · exact absurd (by rw [isGrouped, hkind]) hsingle

namespace SourceFile

variable {file edited : SourceFile} {text path : Text} {localName : Option Text}

theorem exists_converted (hread : file.IsRead) (hconverts : file.convertsImport)
    (happend : file.appendImport path localName = .ok edited) :
    ∃ front gap existing back, file.render = front ++ ("import".toList ++ (gap ++ (existing ++ back))) ∧
      edited.render = front ++ (importOpening ++ (file.lineEnding ++ '\t' :: (existing ++ (file.lineEnding ++
        '\t' :: (renderImport path localName ++ (file.lineEnding ++ ')' :: back)))))) ∧
      (∀ lexeme ∈ Scan.lexemes gap, Scan.isTrivial lexeme.kind) ∧ ∃ spec ∈ file.imports, spec.IsWritten existing := by
  obtain ⟨new, hnone, -⟩ | ⟨earlier, old, later, specs, layout, new, hfile, hearlier, hold, hkind, hnew, rfl⟩ :=
    appendImport_cases happend
  · rw [convertsImport, List.find?_eq_none.mpr hnone] at hconverts
    cases hconverts
  · rw [convertsImport_eq hfile hearlier hold] at hconverts
    obtain ⟨front, gap, existing, back, htext, hextended, hgap, spec, rfl, hwritten⟩ :=
      (hread old (by simp [hfile])).extendImport_single hkind (by simpa using hconverts) file.lineEnding
        (renderImport path localName)
    obtain ⟨before, after, hrender, hedited⟩ := render_rewritten hfile hnew
    have himport : spec ∈ file.imports :=
      List.mem_flatMap.mpr ⟨old, by simp [hfile], by simp [Declaration.imports, hkind]⟩
    refine ⟨before ++ front, gap, existing, back ++ after, ?_, ?_, hgap, spec, himport, hwritten⟩
    · simp [hrender, htext]
    · simp [hedited, hextended]

/-- An import that is added to a declaration without parentheses leaves the file as it is up to the keyword and from
the import on. What stands between the two, white space and comments, is left out. So all ink of the file is kept in its
order if there is none between the two, and otherwise only if the import and the new one happen to have it as well. -/
theorem render_of_converted (hparse : parse text = .ok file) (hconverts : file.convertsImport)
    (happend : file.appendImport path localName = .ok edited) :
    ∃ front gap existing back, file.render = front ++ ("import".toList ++ (gap ++ (existing ++ back))) ∧
      edited.render = front ++ (importOpening ++ (file.lineEnding ++ '\t' :: (existing ++ (file.lineEnding ++
        '\t' :: (renderImport path localName ++ (file.lineEnding ++ ')' :: back)))))) ∧
      (∀ lexeme ∈ Scan.lexemes gap, Scan.isTrivial lexeme.kind) ∧
      (∃ spec ∈ file.imports, spec.IsWritten existing) ∧
      (ink gap = [] → (ink file.render).Sublist (ink edited.render)) ∧
      ((ink file.render).Sublist (ink edited.render) ↔
        (ink gap ++ ink existing).Sublist ('(' :: (ink existing ++ ink (renderImport path localName) ++ [')']))) := by
  obtain ⟨front, gap, existing, back, hrender, hedited, hgap, hspec⟩ :=
    exists_converted (isRead_of_parse hparse) hconverts happend
  have hink := ink_sublist_converted front gap existing back (renderImport path localName) file.isLineEnding_lineEnding
  rw [← hrender, ← hedited] at hink
  refine ⟨front, gap, existing, back, hrender, hedited, hgap, hspec, ?_, hink⟩
  intro hnone
  rw [hink, hnone, List.nil_append]
  exact .cons _ (.trans (List.sublist_append_left _ _) (List.sublist_append_left _ _))

theorem render_of_converted_comment :
    let text := "package a\n\nimport /* c */ \"fmt\" // d\n".toList
    ∃ file edited, parse text = .ok file ∧ file.convertsImport ∧
      file.appendImport "os".toList none = .ok edited ∧ ¬ (ink file.render).Sublist (ink edited.render) ∧
      ∃ front gap existing back, file.render = front ++ ("import".toList ++ (gap ++ (existing ++ back))) ∧
        edited.render = front ++ (importOpening ++ ('\n' :: '\t' :: (existing ++ ('\n' :: '\t' ::
          ("\"os\"".toList ++ '\n' :: ')' :: back))))) ∧ ink gap ≠ [] := by
  repeat rw [String.toList_ofList]
  intro text
  have hrun : (parse text).toOption.any fun file => file.convertsImport && decide (file.lineEnding = ['\n']) &&
      (file.appendImport "os".toList none).toOption.any fun edited =>
        decide (¬ (ink file.render).Sublist (ink edited.render)) := by
    decide
  obtain ⟨file, hfile, hrun⟩ := (Option.any_eq_true ..).mp hrun
  simp only [Bool.and_eq_true, decide_eq_true_eq] at hrun
  obtain ⟨⟨hconverts, hnewline⟩, hrun⟩ := hrun
  obtain ⟨edited, hedited, hlost⟩ := (Option.any_eq_true ..).mp hrun
  have hlost := of_decide_eq_true hlost
  have hparse := eq_ok_of_toOption hfile
  have happend := eq_ok_of_toOption hedited
  obtain ⟨front, gap, existing, back, hrender, hnew, -, -, hkept, -⟩ := render_of_converted hparse hconverts happend
  rw [hnewline] at hnew
  exact ⟨file, edited, hparse, hconverts, happend, hlost, front, gap, existing, back, hrender, hnew,
    fun hnone => hlost (hkept hnone)⟩

end SourceFile

end GoGraft
