import GoGraft.Proofs.EditRuns
import GoGraft.Proofs.FieldInsertion
import GoGraft.Proofs.Utf8Decoding

/-!
# Positions in a declaration

A declaration keeps where its struct types and its imports end, so that an edit can write there. Whatever edits were
made before, each of these positions is one of the declaration's own text, and what it is said to be the position of
stands there: in characters, and with the bytes of what precedes it counted in the bytes of the text.
-/

namespace GoGraft

open Grammar

namespace Text

theorem length_encode (t : Text) : (Utf8.encode t).length = byteSize t := by
  induction t with
  | nil => rfl
  | cons c t ih =>
      calc (Utf8.encode (c :: t)).length
          = (String.utf8EncodeChar c).length + (Utf8.encode t).length := by simp [Utf8.encode]
        _ = c.utf8Size + byteSize t := by rw [String.length_utf8EncodeChar, ih]
        _ = byteSize (c :: t) := (byteSize_cons c t).symm

/-- A part stands in a text behind a number of characters, and its bytes behind the bytes of those characters. -/
structure HasAt (text : Text) (position : Nat) (part : Text) : Prop where
  stop_le : position + part.length ≤ text.length
  chars : (text.drop position).take part.length = part
  bytes : ((Utf8.encode text).drop (byteSize (text.take position))).take (byteSize part) = Utf8.encode part

theorem hasAt_append (before part after : Text) : HasAt (before ++ (part ++ after)) before.length part := by
  refine ⟨?_, ?_, ?_⟩
  · simp only [List.length_append]
    omega
  · rw [List.drop_left, List.take_left]
  · rw [List.take_left, ← length_encode before, ← length_encode part, Utf8.encode_append, List.drop_left,
      Utf8.encode_append, List.take_left]

end Text

theorem Lexeme.IsCut.text_of_closeBrace {lexeme : Lexeme} (hcut : lexeme.IsCut)
    (hkind : lexeme.kind = .mark .closeBrace) : lexeme.text = ['\x7d'] := by
  simpa [Lexeme.marks] using hcut.mark hkind

/-- The texts of an import: its path as it was written, and before it the local name if there is one. -/
inductive ImportSpec.IsWritten (spec : ImportSpec) : Text → Prop where
  | path (hname : spec.localName = none) : IsWritten spec spec.literal
  | named {name between : Text} (hname : spec.localName = some name)
      (hbetween : ∀ lexeme ∈ Scan.lexemes between, Scan.isTrivial lexeme.kind) :
      IsWritten spec (name ++ (between ++ spec.literal))

/-- The positions of an import declaration. -/
def ImportLayout.Fits (text : Text) (specs : List ImportSpec) : ImportLayout → Prop
  | .grouped close _ => text.HasAt close [')']
  | .single start specStart stop =>
      start ≤ specStart ∧ specStart ≤ stop ∧ stop ≤ text.length ∧ text.HasAt start "import".toList ∧
        ∃ spec written, specs = [spec] ∧ spec.IsWritten written ∧ specStart + written.length = stop ∧
          text.HasAt specStart written

namespace Declaration

variable {declaration : Declaration} {gap rest tail : List Marked} {head : Marked} {frames final : List Frame}

theorem ReadAs.hasAt (hread : declaration.ReadAs gap head rest tail frames final) (before part after : List Marked)
    (hsplit : gap ++ head :: rest ++ tail = before ++ (part ++ after)) :
    declaration.text.HasAt (sourceOf before).length (sourceOf part) := by
  rw [hread.text_eq, hsplit, sourceOf_append, sourceOf_append]
  exact Text.hasAt_append _ _ _

theorem isWritten_of_run {spec : List Marked} (start : Nat) (hspec : ImportRun spec)
    (hcuts : Scan.Cuts (spec.map Marked.lexeme) none) :
    ∃ written, (Structure.importParts (Structure.place start spec)).map Structure.importSpecOf = [written] ∧
      written.IsWritten (sourceOf spec) := by
  obtain ⟨part, hpart, -, -, hwritten⟩ := Structure.importParts_run start hspec
  refine ⟨Structure.importSpecOf part, by rw [hpart, List.map_singleton], ?_⟩
  obtain ⟨path, rfl, hpath⟩ | ⟨name, between, path, rfl, hbetween, hnamed⟩ := hwritten
  · have hsource : sourceOf [path] = path.text := by simp
    rw [hpath, hsource]
    exact .path rfl
  · have hinner : Scan.Cuts (between.map Marked.lexeme) none := by
      apply @Scan.Cuts.of_infix none [name.lexeme] _ [path.lexeme]
      simpa using hcuts
    have hsource : sourceOf (name :: (between ++ [path])) = name.text ++ (sourceOf between ++ path.text) := by simp
    rw [hnamed, hsource]
    refine .named rfl ?_
    rw [← source_map_lexeme, Scan.lexemes_source hinner]
    exact List.forall_mem_map.mpr hbetween

/-- A declaration without parentheses imports what is written after its keyword. -/
theorem ReadAs.exists_written {lead spec : List Marked} {specs : List ImportSpec} {layout : ImportLayout}
    (hread : declaration.ReadAs gap head (lead ++ spec) tail frames final)
    (hkind : declaration.kind = .imports specs layout)
    (hlead : ∀ m ∈ lead, m.role = .trivia ∧ Scan.isTrivial m.kind) (hspec : ImportRun spec) :
    ∃ written, specs = [written] ∧ written.IsWritten (sourceOf spec) := by
  obtain ⟨hhead, -⟩ := hread.importWord_of_imports hkind
  have hspecs : specs = (Structure.importParts (Structure.place 0 (gap ++ head :: (lead ++ spec)))).map
      Structure.importSpecOf := by
    rw [← (hread.imports_eq hhead).2, imports, hkind]
  have hrole : head.role = .inner := by rw [hread.head_eq_importWord hhead]
  rw [Structure.importParts_single spec hread.gap_loose hrole hlead] at hspecs
  have hcuts : Scan.Cuts (spec.map Marked.lexeme) none := by
    apply @Scan.Cuts.of_infix none ((gap ++ head :: lead).map Marked.lexeme) _ (tail.map Marked.lexeme)
    simpa using hread.cuts
  obtain ⟨written, hparts, hwritten⟩ := isWritten_of_run (sourceOf (gap ++ head :: lead)).length hspec hcuts
  exact ⟨written, hspecs.trans hparts, hwritten⟩

theorem ReadAs.fits_single {lead spec : List Marked} {specs : List ImportSpec} {layout : ImportLayout}
    (hread : declaration.ReadAs gap head (lead ++ spec) tail frames final)
    (hkind : declaration.kind = .imports specs layout)
    (hlead : ∀ m ∈ lead, m.role = .trivia ∧ Scan.isTrivial m.kind) (hspec : ImportRun spec) :
    ImportLayout.Fits declaration.text specs (.single (sourceOf gap).length (sourceOf (gap ++ head :: lead)).length
      (sourceOf (gap ++ head :: (lead ++ spec))).length) := by
  obtain ⟨hhead, -⟩ := hread.importWord_of_imports hkind
  obtain ⟨written, hspecs, hwritten⟩ := hread.exists_written hkind hlead hspec
  have hstart : (sourceOf gap).length ≤ (sourceOf (gap ++ head :: lead)).length := by simp
  have hstop : (sourceOf (gap ++ head :: lead)).length + (sourceOf spec).length =
      (sourceOf (gap ++ head :: (lead ++ spec))).length := by
    simp [Nat.add_assoc]
  have himport := hread.hasAt gap [head] (lead ++ (spec ++ tail)) (by simp)
  have himportText : sourceOf [head] = "import".toList := by
    rw [hread.head_eq_importWord hhead]
    rfl
  rw [himportText] at himport
  have hat := hread.hasAt (gap ++ head :: lead) spec tail (by simp)
  have hlength := hat.stop_le
  exact ⟨hstart, by omega, by omega, himport, written, sourceOf spec, hspecs, hwritten, hstop, hat⟩

theorem ReadAs.fits_imports (hread : declaration.ReadAs gap head rest tail frames final) {specs : List ImportSpec}
    {layout : ImportLayout} (hkind : declaration.kind = .imports specs layout) :
    layout.Fits declaration.text specs := by
  obtain ⟨lead, spec, rfl, hlead, hspec, rfl⟩ | ⟨kept, close, indent, rfl, hclose, -, rfl, -⟩ :=
    hread.import_cases hkind
  · exact hread.fits_single hkind hlead hspec
  · have hcut : close.lexeme.IsCut := hread.cuts.isCut close.lexeme (by simp)
    have hmark : sourceOf [close] = [')'] := by
      rw [sourceOf_cons, Marked.text, hcut.text_of_closeParen hclose]
      rfl
    have hat := hread.hasAt (gap ++ head :: kept) [close] tail (by simp)
    rwa [hmark] at hat

theorem IsRead.hasAt_close (hread : declaration.IsRead) {spec : TypeSpec} {record : Record}
    (hspec : spec ∈ declaration.typeSpecs) (hbody : spec.body = .record record) :
    declaration.text.HasAt record.close ['\x7d'] := by
  obtain ⟨before, others, hspecs⟩ := List.append_of_mem hspec
  obtain ⟨gap, head, front, body, white, close, trivia, after, tail, inside, bottom, final, hrecord⟩ :=
    hread.exists_hasRecord hspecs hbody
  have hcut : close.lexeme.IsCut := hrecord.readAs.cuts.isCut close.lexeme (by simp)
  have hmark : sourceOf [close] = ['\x7d'] := by
    rw [sourceOf_cons, Marked.text, hcut.text_of_closeBrace hrecord.close_kind]
    rfl
  have hat := hrecord.readAs.hasAt (gap ++ head :: (front ++ body ++ white)) [close] (trivia ++ (after ++ tail))
    (by simp)
  rwa [hmark, ← hrecord.close_eq] at hat

end Declaration

namespace IndexedFile

/-- After any run of edits, the end of each struct type is the position of a closing brace in the text of its
declaration, the end of an import group that of a closing parenthesis, and an import without parentheses begins and
ends where its text does, behind the keyword. -/
theorem layouts_of_run {text : Text} {start : IndexedFile} (hparse : parse text = .ok start) (edits : List Edit) :
    ∀ declaration ∈ (start.run edits).file.declarations,
      (∀ spec ∈ declaration.typeSpecs, ∀ record, spec.body = .record record →
        declaration.text.HasAt record.close ['\x7d']) ∧
      ∀ specs layout, declaration.kind = .imports specs layout → layout.Fits declaration.text specs := by
  intro declaration hmem
  have hread := (isSound_of_run hparse edits).read declaration hmem
  refine ⟨fun spec hspec record hbody => hread.hasAt_close hspec hbody, ?_⟩
  intro specs layout hkind
  obtain ⟨gap, head, rest, tail, frames, final, hread⟩ := hread
  exact hread.fits_imports hkind

-- Characters of two bytes stand before both positions and inside the import; the field brings one more.
theorem layouts_of_run_accented :
    let text := "package a\n\n/* ä */ import f /* ü */ \"fmt\"\n\n".toList ++
      "type (\n\tA int\n\tB struct \x7b\n\t\x7d // ö\n)\n".toList
    let edits : List Edit := [.appendField ⟨1, 1⟩ ⟨['F'], .verbatim "int".toList, none, some ['é']⟩]
    let record : Record := ⟨[⟨['F'], .verbatim "int".toList, none, false⟩], 44, some ['\t', '\t']⟩
    ∃ start first second, parse text = .ok start ∧ (start.run edits).file.declarations = [first, second] ∧
      ImportLayout.Fits first.text [⟨some ['f'], "fmt".toList, "\"fmt\"".toList⟩] (.single 10 17 32) ∧
      ⟨['B'], false, .record record⟩ ∈ second.typeSpecs ∧ second.text.HasAt 44 ['\x7d'] := by
  repeat rw [String.toList_ofList]
  intro text edits record
  have hrun : (parse text).toOption.any fun start =>
      decide ((start.run edits).file.declarations.map Declaration.kind =
        [.imports [⟨some ['f'], "fmt".toList, "\"fmt\"".toList⟩] (.single 10 17 32),
          .types [⟨['A'], false, .expr (.verbatim "int".toList)⟩, ⟨['B'], false, .record record⟩]]) := by
    decide +kernel
  obtain ⟨start, hstart, hrun⟩ := (Option.any_eq_true ..).mp hrun
  obtain ⟨first, others, hfile, hfirst, hothers⟩ := List.map_eq_cons_iff.mp (of_decide_eq_true hrun)
  obtain ⟨second, none, rfl, hsecond, hnone⟩ := List.map_eq_cons_iff.mp hothers
  obtain rfl := List.map_eq_nil_iff.mp hnone
  have hparse := eq_ok_of_toOption hstart
  have hfits := layouts_of_run hparse edits
  have hspec : ⟨['B'], false, .record record⟩ ∈ second.typeSpecs := by
    rw [Declaration.typeSpecs, hsecond]
    exact .tail _ (.head _)
  exact ⟨start, first, second, hparse, hfile, (hfits first (by simp [hfile])).2 _ _ hfirst, hspec,
    (hfits second (by simp [hfile])).1 _ hspec record rfl⟩

end IndexedFile

end GoGraft
