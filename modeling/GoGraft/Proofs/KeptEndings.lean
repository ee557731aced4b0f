import GoGraft.Proofs.EditRuns
import GoGraft.Proofs.LineEndings

/-!
# Edits keep the line ending of a file

A file shows its line ending at the first newline of its texts, taken one after the other. An edit may put a newline
before that one, or write the declaration anew that has it. But what an edit writes begins with a line ending of the
file, and where a text is rewritten, what stands before the edit is kept. The two could only join to another line
ending where the kept text ends in a carriage return, and then a mark follows it in the file.
-/

namespace GoGraft

open Grammar

namespace Text

/-- Every carriage return has a newline behind it. -/
def hasPairedReturns : Text → Bool
  | [] => true
  | c :: rest => (c != '\r' || rest.head? == some '\n') && hasPairedReturns rest

theorem head?_of_hasPairedReturns {front back : Text} (hreturns : hasPairedReturns (front ++ '\r' :: back)) :
    back.head? = some '\n' := by
  induction front with
  | nil => exact beq_iff_eq.mp (Bool.and_eq_true_iff.mp hreturns).1
  | cons c front ih => exact ih (Bool.and_eq_true_iff.mp hreturns).2

theorem getLast?_ne_return {front back : Text} {c : Char} (hreturns : hasPairedReturns (front ++ c :: back))
    (hc : c ≠ '\n') : front.getLast? ≠ some '\r' := by
  intro hlast
  obtain ⟨init, rfl⟩ := List.getLast?_eq_some_iff.mp hlast
  rw [List.append_assoc] at hreturns
  exact hc (Option.some.inj (head?_of_hasPairedReturns hreturns))

end Text

open Text

/-! ## The first line ending of a text -/

theorem bne_newline_of_mem {line : Text} (hline : '\n' ∉ line) : ∀ c ∈ line, c != '\n' := by
  intro c hc
  rw [bne_iff_ne]
  rintro rfl
  exact hline hc

theorem firstLineEnding_line {line : Text} (hline : '\n' ∉ line) (back : Text) :
    firstLineEnding (line ++ '\n' :: back) = some (if line.getLast? = some '\r' then crlf else ['\n']) := by
  have hall := bne_newline_of_mem hline
  unfold firstLineEnding
  rw [List.dropWhile_append_of_pos hall, List.takeWhile_append_of_pos hall]
  simp [crlf]

theorem firstLineEnding_append {left : Text} (hleft : '\n' ∈ left) (right : Text) :
    firstLineEnding (left ++ right) = firstLineEnding left := by
  obtain ⟨line, back, rfl, hline⟩ := List.eq_append_cons_of_mem hleft
  rw [List.append_assoc, List.cons_append, firstLineEnding_line hline, firstLineEnding_line hline]

theorem firstLineEnding_ending {left newline : Text} (hleft : '\n' ∉ left) (hreturn : left.getLast? ≠ some '\r')
    (hnewline : IsLineEnding newline) (right : Text) : firstLineEnding (left ++ (newline ++ right)) = some newline := by
  obtain rfl | rfl := hnewline
  · rw [List.singleton_append, firstLineEnding_line hleft, if_neg hreturn]
  · have hsplit : left ++ (['\r', '\n'] ++ right) = (left ++ ['\r']) ++ '\n' :: right := by simp
    rw [hsplit, firstLineEnding_line (by simpa using hleft), if_pos (by simp)]
    rfl

/-- The new text shows the line ending that the old one shows, or the given one. -/
def KeepsEnding (newline old new : Text) : Prop :=
  firstLineEnding new = firstLineEnding old ∨ firstLineEnding new = some newline

section Texts

variable {front back more newline : Text}

theorem keepsEnding_of_mem (hfront : '\n' ∈ front) : KeepsEnding newline (front ++ back) (front ++ more) :=
  .inl (by rw [firstLineEnding_append hfront, firstLineEnding_append hfront])

theorem keepsEnding_of_line {lead : Text} (hlead : '\n' ∉ lead) (hreturn : (front ++ lead).getLast? ≠ some '\r')
    (hnewline : IsLineEnding newline) :
    KeepsEnding newline (front ++ back) (front ++ (lead ++ (newline ++ more))) := by
  by_cases hfront : '\n' ∈ front
  · exact keepsEnding_of_mem hfront
  · rw [← List.append_assoc]
    exact .inr (firstLineEnding_ending (by simp [hfront, hlead]) hreturn hnewline more)

theorem keepsEnding_spliceBefore {indent : Option Text} {entry : Text → Text} (hink : ¬ front.all isIndent)
    (hreturn : front.getLast? ≠ some '\r') (hnewline : IsLineEnding newline) :
    KeepsEnding newline (front ++ back) (spliceBefore (front ++ back) front.length indent newline entry) := by
  have htake : (front ++ back).take front.length = front := List.take_left
  by_cases hown : (lastLine front).all isIndent
  · -- The entry goes on lines of its own, behind a newline that is kept.
    have hmem : '\n' ∈ front := by
      apply Decidable.byContradiction
      intro hnone
      have hline : lastLine front = front := @lastLine_append [] front hnone
      exact hink (hline ▸ hown)
    obtain ⟨left, line, rfl, hline⟩ := exists_last_newline hmem
    have hstart : (left ++ '\n' :: line ++ back).take (lineStart (left ++ '\n' :: line ++ back)
        (left ++ '\n' :: line).length) = left ++ ['\n'] := by
      have hlength : (left ++ '\n' :: line).length - line.length = (left ++ ['\n']).length := by
        simp only [List.length_append, List.length_cons, List.length_nil]
        omega
      have hsplit : left ++ '\n' :: line ++ back = (left ++ ['\n']) ++ (line ++ back) := by simp
      rw [lineStart, htake, lastLine_newline hline, hlength, hsplit, List.take_left]
    rw [spliceBefore_own (htake.symm ▸ hown), hstart, List.append_cons left, List.append_assoc _ line]
    exact keepsEnding_of_mem (by simp)
  · -- The entry brings its newline along.
    rw [spliceBefore_other (htake.symm ▸ hown), htake, List.append_assoc]
    exact @keepsEnding_of_line _ _ _ _ [] (by simp) (by simpa using hreturn) hnewline

end Texts

/-! ## Declarations that are written anew -/

namespace Declaration

variable {declaration : Declaration} {front back newline : Text}

theorem ReadAs.keepsEnding_spliceBefore {gap kept after tail : List Marked} {head m : Marked}
    {frames final : List Frame} {mark : Char} {indent : Option Text} {entry : Text → Text}
    (hread : declaration.ReadAs gap head (kept ++ m :: after) tail frames final) (hmark : m.text = [mark])
    (hne : mark ≠ '\n') (hnewline : IsLineEnding newline)
    (hreturns : hasPairedReturns (front ++ (declaration.text ++ back))) :
    KeepsEnding newline declaration.text
      (GoGraft.spliceBefore declaration.text (sourceOf (gap ++ head :: kept)).length indent newline entry) := by
  have htext : declaration.text = sourceOf (gap ++ head :: kept) ++ (mark :: sourceOf (after ++ tail)) := by
    rw [hread.text_eq]
    simp [hmark]
  -- What precedes a mark of an item is more than indentation: the keyword is there.
  have hink : ¬ (sourceOf (gap ++ head :: kept)).all isIndent := by
    intro hall
    have hcut : head.lexeme.IsCut := hread.cuts.isCut head.lexeme (by simp)
    obtain ⟨c, rest, hc⟩ := List.exists_cons_of_ne_nil hcut.text_ne_nil
    have hspace : ¬ isSpace c :=
      Scan.not_isSpace_head hcut (fun hwhite => hread.not_isLoose_head (isLoose_of_isWhite hwhite)) c (by rw [hc]; rfl)
    have hindent : isIndent c := List.all_eq_true.mp hall c (by simp [Marked.text, hc])
    simp only [isIndent, Bool.or_eq_true, beq_iff_eq] at hindent
    obtain rfl | rfl := hindent <;> exact hspace rfl
  have hreturn : (sourceOf (gap ++ head :: kept)).getLast? ≠ some '\r' := by
    have hsplit : front ++ (declaration.text ++ back) =
        (front ++ sourceOf (gap ++ head :: kept)) ++ mark :: (sourceOf (after ++ tail) ++ back) := by
      rw [htext]
      simp
    rw [hsplit] at hreturns
    intro hlast
    apply getLast?_ne_return hreturns hne
    rw [List.getLast?_append, hlast]
    rfl
  rw [htext]
  exact GoGraft.keepsEnding_spliceBefore hink hreturn hnewline

theorem IsRead.keepsEnding_field {before others : List TypeSpec} {spec : TypeSpec} {record : Record}
    {entry : Text → Text} (hread : declaration.IsRead) (hspecs : declaration.typeSpecs = before ++ spec :: others)
    (hbody : spec.body = .record record) (hnewline : IsLineEnding newline)
    (hreturns : hasPairedReturns (front ++ (declaration.text ++ back))) :
    KeepsEnding newline declaration.text
      (spliceBefore declaration.text record.close record.indent newline entry) := by
  obtain ⟨gap, head, inner, body, white, close, trivia, after, tail, inside, bottom, final, hrecord⟩ :=
    hread.exists_hasRecord hspecs hbody
  have hmark : close.lexeme.text = ['\x7d'] := by
    simpa [Lexeme.marks] using (hrecord.readAs.cuts.isCut close.lexeme (by simp)).mark hrecord.close_kind
  rw [hrecord.close_eq]
  exact hrecord.readAs.keepsEnding_spliceBefore hmark (by decide) hnewline hreturns

theorem IsRead.keepsEnding_extendImport {specs : List ImportSpec} {layout : ImportLayout} (hread : declaration.IsRead)
    (hkind : declaration.kind = .imports specs layout) (hnewline : IsLineEnding newline)
    (hreturns : hasPairedReturns (front ++ (declaration.text ++ back))) (spec : Text) :
    KeepsEnding newline declaration.text (SourceFile.extendImport declaration.text layout newline spec) := by
  obtain ⟨gap, head, rest, tail, frames, final, hread⟩ := hread
  obtain ⟨lead, existing, rfl, -, -, rfl⟩ | ⟨kept, close, indent, rfl, hclose, -, rfl, -⟩ := hread.import_cases hkind
  · -- All between the keyword and the import goes, and with it maybe the first newline of the file. The new text has
    -- one behind its parenthesis.
    have htext : declaration.text = sourceOf gap ++ sourceOf (head :: (lead ++ existing) ++ tail) := by
      rw [hread.text_eq]
      simp
    rw [hread.extendImport_single, htext]
    simp only [List.append_assoc]
    have hopening : '\n' ∉ importOpening := by decide
    have hreturn : (sourceOf gap ++ importOpening).getLast? ≠ some '\r' := by
      rw [List.getLast?_append, show importOpening.getLast? = some '(' from rfl, Option.some_or]
      decide
    exact keepsEnding_of_line hopening hreturn hnewline
  · have hmark : close.text = [')'] := (hread.cuts.isCut close.lexeme (by simp)).text_of_closeParen hclose
    rw [SourceFile.extendImport]
    exact hread.keepsEnding_spliceBefore hmark (by decide) hnewline hreturns

end Declaration

/-! ## Files -/

namespace SourceFile

variable {file : SourceFile}

theorem getD_findSome?_append {front old new : List Text} {ending : Text}
    (hending : ((front ++ old).findSome? firstLineEnding).getD ['\n'] = ending)
    (hnew : new.findSome? firstLineEnding = old.findSome? firstLineEnding ∨
      new.findSome? firstLineEnding = some ending) :
    ((front ++ new).findSome? firstLineEnding).getD ['\n'] = ending := by
  rw [List.findSome?_append] at hending ⊢
  cases hfront : front.findSome? firstLineEnding with
  | some found => rwa [hfront] at hending
  | none =>
      rw [hfront, Option.none_or] at hending
      obtain hnew | hnew := hnew
      · rwa [hnew]
      · rw [hnew]
        rfl

theorem lineEnding_split (file : SourceFile) (earlier later : List Declaration) :
    lineEnding { file with declarations := earlier ++ later } =
      ((file.header :: earlier.map Declaration.text ++ (later.map Declaration.text ++ [file.trailer])).findSome?
        firstLineEnding).getD ['\n'] := by
  simp [lineEnding]

theorem render_of_split {earlier later : List Declaration} {declaration : Declaration}
    (hsplit : file.declarations = earlier ++ declaration :: later) :
    file.render = (file.header ++ earlier.flatMap Declaration.text) ++
      (declaration.text ++ (later.flatMap Declaration.text ++ file.trailer)) := by
  rw [← render_split, ← hsplit]

theorem lineEnding_replaced {earlier later : List Declaration} {old new : Declaration}
    (hsplit : file.declarations = earlier ++ old :: later) (hkeeps : KeepsEnding file.lineEnding old.text new.text) :
    lineEnding { file with declarations := earlier ++ new :: later } = file.lineEnding := by
  have hfile : file.lineEnding = lineEnding { file with declarations := earlier ++ old :: later } := by rw [← hsplit]
  rw [lineEnding_split] at hfile ⊢
  refine getD_findSome?_append hfile.symm ?_
  simp only [List.map_cons, List.cons_append, List.findSome?_cons]
  obtain hsame | hnew := hkeeps
  · exact .inl (by rw [hsame])
  · exact .inr (by rw [hnew])

theorem lineEnding_inserted {new : Declaration} {more : Text} (index : Nat) (hnew : new.text = file.lineEnding ++ more) :
    (file.insert index new).lineEnding = file.lineEnding := by
  have hfirst : firstLineEnding new.text = some file.lineEnding :=
    hnew ▸ @firstLineEnding_ending [] _ (by simp) (by simp) file.isLineEnding_lineEnding more
  have hfile : file.lineEnding =
      lineEnding { file with declarations := file.declarations.take index ++ file.declarations.drop index } := by
    rw [List.take_append_drop]
  rw [insert, lineEnding_split]
  rw [lineEnding_split] at hfile
  refine getD_findSome?_append hfile.symm (.inr ?_)
  rw [List.map_cons, List.cons_append, List.findSome?_cons, hfirst]

theorem lineEnding_of_appendField {edited : SourceFile} {location : TypeLocation} {field : NewField}
    (hread : file.IsRead) (hreturns : hasPairedReturns file.render)
    (happend : file.appendField location field = .ok edited) : edited.lineEnding = file.lineEnding := by
  obtain ⟨earlier, old, later, before, spec, others, record, new, hsplit, -, hspecs, hbody, hnew, rfl⟩ :=
    appendField_cases happend
  rw [render_of_split hsplit] at hreturns
  apply lineEnding_replaced hsplit
  rw [(Declaration.isRead_of_parse hnew).2]
  exact (hread old (by simp [hsplit])).keepsEnding_field hspecs hbody file.isLineEnding_lineEnding hreturns

theorem lineEnding_of_insertType {edited : SourceFile} {index position : Nat} {type : NewType}
    (hinsert : file.insertType index type = .ok (edited, position)) : edited.lineEnding = file.lineEnding := by
  obtain ⟨new, hnew, rfl⟩ := insertType_cases hinsert
  have htext := (Declaration.isRead_of_parse hnew).2
  rw [newTypeText, List.append_assoc] at htext
  exact lineEnding_inserted index htext

theorem lineEnding_of_appendImport {edited : SourceFile} {path : Text} {localName : Option Text}
    (hread : file.IsRead) (hreturns : hasPairedReturns file.render)
    (happend : file.appendImport path localName = .ok edited) : edited.lineEnding = file.lineEnding := by
  obtain ⟨new, -, hnew, rfl⟩ | ⟨earlier, old, later, specs, layout, new, hsplit, -, -, hkind, hnew, rfl⟩ :=
    appendImport_cases happend
  · have htext := (Declaration.isRead_of_parse hnew).2
    simp only [newImportText, List.append_assoc] at htext
    exact lineEnding_inserted _ htext
  · rw [render_of_split hsplit] at hreturns
    apply lineEnding_replaced hsplit
    rw [(Declaration.isRead_of_parse hnew).2]
    exact (hread old (by simp [hsplit])).keepsEnding_extendImport hkind file.isLineEnding_lineEnding hreturns _

end SourceFile

namespace IndexedFile

/-- After any run of edits, an edit that succeeds leaves the line ending that the file shows, whatever texts it writes,
if no carriage return stands alone. -/
theorem lineEnding_of_perform {text : Text} {start edited : IndexedFile} {edits : List Edit} {edit : Edit}
    (hparse : parse text = .ok start) (hreturns : hasPairedReturns (start.run edits).file.render)
    (hperform : edit.perform (start.run edits) = ⟨edited, .ok ()⟩) :
    edited.file.lineEnding = (start.run edits).file.lineEnding := by
  have hread := (isSound_of_run hparse edits).read
  obtain ⟨hmakes, -⟩ := makes_of_perform hperform
  cases hmakes with
  | appendField happend => exact SourceFile.lineEnding_of_appendField hread hreturns happend
  | insertType hinsert => exact SourceFile.lineEnding_of_insertType hinsert
  | appendImport happend => exact SourceFile.lineEnding_of_appendImport hread hreturns happend

-- The first newline of the file is in a comment that goes when the import gets parentheses. The doc of the field has
-- newlines of another kind.
theorem lineEnding_of_perform_one_line :
    let text := "package a; import /* a\r\n */ \"fmt\"; type A struct\x7b\x7d\r\n".toList
    let edits : List Edit := [.insertType 2 (.record ['B'])]
    let field : Edit := .appendField ⟨1, 0⟩ ⟨['F'], .verbatim "int".toList, none, some "f\ng".toList⟩
    let imported : Edit := .appendImport "os".toList none
    ∀ edit ∈ [field, imported], ∃ start edited, parse text = .ok start ∧
      hasPairedReturns (start.run edits).file.render ∧ edit.perform (start.run edits) = ⟨edited, .ok ()⟩ ∧
      (start.run edits).file.lineEnding = crlf ∧ edited.file.lineEnding = (start.run edits).file.lineEnding := by
  repeat rw [String.toList_ofList]
  intro text edits field imported edit hedit
  have hrun : [field, imported].all fun edit => (parse text).toOption.any fun start =>
      hasPairedReturns (start.run edits).file.render && (edit.perform (start.run edits)).toOption.isSome &&
        decide ((start.run edits).file.lineEnding = crlf) := by
    decide
  obtain ⟨start, hstart, hrun⟩ := (Option.any_eq_true ..).mp (List.all_eq_true.mp hrun edit hedit)
  simp only [Bool.and_eq_true, decide_eq_true_eq] at hrun
  obtain ⟨⟨hreturns, hsome⟩, hending⟩ := hrun
  obtain ⟨⟨edited, ⟨⟩⟩, hedited⟩ := Option.isSome_iff_exists.mp hsome
  have hparse := eq_ok_of_toOption hstart
  have hperform := Attempt.eq_of_toOption hedited
  exact ⟨start, edited, hparse, hreturns, hperform, hending, lineEnding_of_perform hparse hreturns hperform⟩

end IndexedFile

end GoGraft
