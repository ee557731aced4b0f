import GoGraft.Proofs.ImportLists

/-!
# Imports that are added

An import is written into a declaration that begins as an import declaration with parentheses does, after white space.
That holds of all three layouts, and it is all that counts: whatever the declaration holds, it is read as an import
declaration with parentheses again, the imports that it had are kept, and the string that was written is the path of one
of its imports.
-/

namespace GoGraft

open Grammar Lexeme

/-- A text that begins as an import declaration, with some lexemes that are kept, has `spec` after white space, and has
nothing of an import after that. -/
inductive ImportText (kept : List Lexeme) : Text → Text → Prop where
  | mk {front : List Lexeme} {before spec rest : Text} (hfront : ∀ lexeme ∈ front, isLoose lexeme.kind)
      (hcuts : Scan.Cuts (front ++ importWord :: kept) before.head?) (hbefore : ∀ c ∈ before, Text.isSpace c)
      (hne : before ≠ []) (hrest : ∀ lexeme ∈ Scan.lexemes rest, ¬ isImportPart lexeme.kind) :
      ImportText kept (source (front ++ importWord :: kept) ++ (before ++ (spec ++ rest))) spec

/-- What is read from a text that begins as an import declaration. -/
theorem Declaration.isRead_of_importText {front others : List Lexeme} {before after : Text}
    {declaration : Declaration} (hfront : ∀ lexeme ∈ front, isLoose lexeme.kind)
    (hcuts : Scan.Cuts (front ++ importWord :: others) before.head?) (hne : before ≠ [])
    (hparse : Declaration.parse (source (front ++ importWord :: others) ++ (before ++ after)) =
      .ok declaration) :
    ∃ gap head rest tail frames final, declaration.ReadAs gap head rest tail frames final ∧
      head.kind = .keyword .importWord ∧
      rest.map Marked.lexeme ++ tail.map Marked.lexeme = others ++ Scan.lexemes (before ++ after) := by
  obtain ⟨⟨gap, head, rest, tail, frames, final, hread⟩, htext⟩ := Declaration.isRead_of_parse hparse
  have hlexemes : Scan.lexemes declaration.text =
      front ++ importWord :: (others ++ Scan.lexemes (before ++ after)) := by
    rw [htext, Scan.lexemes_append (Text.head?_append after hne ▸ hcuts)]
    simp
  obtain ⟨-, hhead, hrest⟩ := hread.split_lexemes hlexemes hfront (by decide)
  exact ⟨gap, head, rest, tail, frames, final, hread, congrArg Lexeme.kind hhead, hrest⟩

namespace ImportText

variable {kept : List Lexeme} {text spec : Text} {declaration : Declaration}

theorem exists_readAs (htext : ImportText kept text spec) (hparse : Declaration.parse text = .ok declaration) :
    ∃ gap head rest tail frames final, declaration.ReadAs gap head rest tail frames final ∧
      head.kind = .keyword .importWord ∧
      ∀ lexeme ∈ kept, ¬ isLoose lexeme.kind → ∃ m ∈ rest, m.lexeme = lexeme := by
  cases htext with
  | mk hfront hcuts hbefore hne =>
      obtain ⟨gap, head, rest, tail, frames, final, hread, hhead, hrest⟩ :=
        Declaration.isRead_of_importText hfront hcuts hne hparse
      refine ⟨gap, head, rest, tail, frames, final, hread, hhead, ?_⟩
      intro lexeme hlexeme hloose
      have hmem : lexeme ∈ rest.map Marked.lexeme ++ tail.map Marked.lexeme := by
        rw [hrest]
        exact List.mem_append_left _ hlexeme
      obtain hmem | hmem := List.mem_append.mp hmem
      · exact List.mem_map.mp hmem
      · exact absurd (hread.isLoose_tail lexeme hmem) hloose

theorem isImport (htext : ImportText kept text spec) (hparse : Declaration.parse text = .ok declaration) :
    declaration.isImport := by
  obtain ⟨gap, head, rest, tail, frames, final, hread, hhead, -⟩ := htext.exists_readAs hparse
  exact (hread.imports_eq hhead).1

theorem isGrouped (htext : ImportText kept text spec) (hparse : Declaration.parse text = .ok declaration)
    (hopen : ∃ lexeme ∈ kept, lexeme.kind = .mark .openParen) : declaration.isGrouped := by
  obtain ⟨gap, head, rest, tail, frames, final, hread, hhead, hkept⟩ := htext.exists_readAs hparse
  obtain ⟨lexeme, hlexeme, hkind⟩ := hopen
  obtain ⟨m, hm, rfl⟩ := hkept lexeme hlexeme (by rw [hkind]; decide)
  exact (hread.isGrouped_iff hhead).mpr ⟨m, hm, hkind⟩

theorem import_of_string (htext : ImportText kept text spec) (hparse : Declaration.parse text = .ok declaration)
    {lexeme : Lexeme} (hlexeme : lexeme ∈ kept) (hkind : lexeme.kind = .string) :
    ∃ spec ∈ declaration.imports, spec.path = Structure.unquote lexeme.text := by
  obtain ⟨gap, head, rest, tail, frames, final, hread, hhead, hkept⟩ := htext.exists_readAs hparse
  obtain ⟨m, hm, rfl⟩ := hkept lexeme hlexeme (by rw [hkind]; decide)
  exact hread.exists_import hhead hm hkind

theorem exists_import {path : Text} {localName : Option Text}
    (htext : ImportText kept text (renderImport path localName)) (hpath : isImportPath path)
    (hname : ∀ name ∈ localName, name = ['.'] ∨ isIdentifier name)
    (hparse : Declaration.parse text = .ok declaration) :
    ∃ spec ∈ declaration.imports, spec.path = path := by
  cases htext with
  | @mk front before _ after hfront hcuts hbefore hne =>
      obtain ⟨gap, head, rest, tail, frames, final, hread, hhead, hrest⟩ :=
        Declaration.isRead_of_importText hfront hcuts hne hparse
      have hink : ∀ c ∈ (renderImport path localName ++ after).head?, ¬ Text.isSpace c :=
        Scan.not_isSpace_renderImport hname
      rw [Scan.lexemes_white hbefore hink] at hrest
      have hstray : ∀ lexeme ∈ Scan.lexemes (renderImport path localName ++ after),
          lexeme.kind ≠ .stray := by
        intro lexeme hlexeme
        apply hread.lexemes_ne_stray
        rw [hread.lexemes, List.append_assoc, List.cons_append, List.map_append, List.map_cons, List.map_append, hrest]
        simp [hlexeme]
      obtain ⟨named, hspec⟩ := Scan.lexemes_renderImport hpath hname hstray
      rw [hspec, ← List.append_assoc, ← List.append_assoc] at hrest
      obtain ⟨more, hmore, -⟩ := hread.split_rest hrest (by simp [isLoose])
      have hmem : (⟨.string, '\x22' :: (path ++ ['\x22'])⟩ : Lexeme) ∈ rest.map Marked.lexeme := by
        simp [hmore]
      obtain ⟨m, hm, hlexeme⟩ := List.mem_map.mp hmem
      obtain ⟨spec, hspec, hspecPath⟩ := hread.exists_import hhead hm (congrArg Lexeme.kind hlexeme)
      refine ⟨spec, hspec, hspecPath.trans ?_⟩
      rw [Marked.text, hlexeme]
      exact Structure.unquote_quoted path

theorem imports_eq {path : Text} (htext : ImportText kept text (renderImport path none))
    (hpath : ∀ c ∈ path, c ≠ '\x22' ∧ c ≠ '\\' ∧ c ≠ '\n') (hopen : openName none kept = none)
    (hparse : Declaration.parse text = .ok declaration) :
    declaration.imports = importsIn none kept ++ [⟨none, path, renderImport path none⟩] := by
  cases htext with
  | @mk front before _ after hfront hcuts hbefore hne hafter =>
      obtain ⟨gap, head, rest, tail, frames, final, hread, hhead, hrest⟩ :=
        Declaration.isRead_of_importText hfront hcuts hne hparse
      have hwhite : ∀ lexeme ∈ Scan.lexemes before, ¬ isImportPart lexeme.kind := fun lexeme hlexeme =>
        not_isImportPart_of_isLoose (isLoose_of_isWhite (Scan.isWhite_of_mem_lexemes hbefore lexeme hlexeme))
      have htail : ∀ lexeme ∈ tail.map Marked.lexeme, ¬ isImportPart lexeme.kind := fun lexeme hlexeme =>
        not_isImportPart_of_isLoose (hread.isLoose_tail lexeme hlexeme)
      have hspec : Scan.lexemes (before ++ (renderImport path none ++ after)) =
          Scan.lexemes before ++ ⟨.string, renderImport path none⟩ :: Scan.lexemes after := by
        rw [Scan.lexemes_white hbefore (Scan.not_isSpace_renderImport (by simp))]
        exact congrArg _ (Scan.lexemes_quoted hpath)
      have hquoted : Structure.unquote (renderImport path none) = path := Structure.unquote_quoted path
      calc declaration.imports
          = importsIn none (rest.map Marked.lexeme ++ tail.map Marked.lexeme) := by
            rw [(hread.imports_eq_importsIn hhead).1, importsIn_append, (imports_of_ignored _ htail).1, List.append_nil]
        _ = importsIn none kept ++ importsIn none (⟨.string, renderImport path none⟩ :: Scan.lexemes after) := by
            rw [hrest, hspec, importsIn_append, hopen, importsIn_append, (imports_of_ignored _ hwhite).1,
              (imports_of_ignored _ hwhite).2, List.nil_append]
        _ = importsIn none kept ++ [⟨none, path, renderImport path none⟩] := by
            rw [importsIn, if_pos rfl, (imports_of_ignored _ hafter).1, hquoted]

end ImportText

theorem importText_of_lexemes {kept front : List Lexeme} {opening before spec rest : Text}
    (hfront : ∀ lexeme ∈ front, isLoose lexeme.kind) (hcuts : Scan.Cuts front (some 'i'))
    (hopening : Scan.lexemes opening = importWord :: kept)
    (hlast : ∀ last ∈ (importWord :: kept).getLast?,
      ¬ Scan.isTrivial last.kind ∧ last.kind ≠ .stray)
    (hbefore : ∀ c ∈ before, Text.isSpace c) (hne : before ≠ [])
    (hrest : ∀ lexeme ∈ Scan.lexemes rest, ¬ isImportPart lexeme.kind) :
    ImportText kept (source front ++ (opening ++ (before ++ (spec ++ rest)))) spec := by
  have hsource : source (importWord :: kept) = opening := by
    rw [← hopening, Scan.source_lexemes]
  have hspaced : Scan.Cuts (importWord :: kept) before.head? := by
    apply Scan.Cuts.extend_space (hopening ▸ Scan.cuts_lexemes opening) hlast
    intro c hc
    exact hbefore c (List.mem_of_mem_head? hc)
  have hall : Scan.Cuts (front ++ importWord :: kept) before.head? :=
    Scan.Cuts.append_iff.mpr ⟨hcuts, hspaced⟩
  have htext := @ImportText.mk kept front before spec rest hfront hall hbefore hne hrest
  rwa [source_append, hsource, List.append_assoc] at htext

theorem isSpace_tab {white : Text} (hwhite : ∀ c ∈ white, Text.isSpace c) :
    ∀ c ∈ white ++ ['\t'], Text.isSpace c := by
  rw [List.forall_mem_append, List.forall_mem_singleton]
  exact ⟨hwhite, by decide⟩

/-- The beginning of an import declaration with parentheses. -/
def importOpening : Text :=
  "import (".toList

/-- The parenthesis that opens a group of imports. -/
def importOpen : Lexeme :=
  ⟨.mark .openParen, ['(']⟩

theorem lexemes_importOpening : Scan.lexemes importOpening = [importWord, ⟨.blank, [' ']⟩, importOpen] := by
  decide

/-- Behind the parenthesis that closes a group of imports only loose lexemes stand. -/
theorem not_isImportPart_close {white : Text} {tail : List Lexeme} (hwhite : ∀ c ∈ white, Text.isSpace c)
    (hcuts : Scan.Cuts tail none) (htail : ∀ lexeme ∈ tail, isLoose lexeme.kind) :
    ∀ lexeme ∈ Scan.lexemes (white ++ ')' :: source tail), ¬ isImportPart lexeme.kind := by
  have hclose : Lexeme.IsCut ⟨.mark .closeParen, [')']⟩ := ⟨.mark, rfl, rfl⟩
  have hlexemes : Scan.lexemes (white ++ ')' :: source tail) =
      Scan.lexemes white ++ ⟨.mark .closeParen, [')']⟩ :: tail := by
    rw [Scan.lexemes_white hwhite (by simp; decide)]
    congr 1
    exact @Scan.lexemes_source (_ :: tail) ⟨hclose, fun c _ => hclose.endsBefore_of_closeParen rfl c, hcuts⟩
  rw [hlexemes]
  refine List.forall_mem_append.mpr ⟨?_, List.forall_mem_cons.mpr ⟨by decide, ?_⟩⟩
  · intro lexeme hlexeme
    exact not_isImportPart_of_isLoose (isLoose_of_isWhite (Scan.isWhite_of_mem_lexemes hwhite lexeme hlexeme))
  · exact fun lexeme hlexeme => not_isImportPart_of_isLoose (htail lexeme hlexeme)

theorem importText_new {newline : Text} (spec : Text) (hnewline : IsLineEnding newline) :
    ImportText [⟨.blank, [' ']⟩, importOpen]
      (newline ++ newline ++ importOpening ++ newline ++ '\t' :: spec ++ newline ++ [')']) spec := by
  have hne := hnewline.ne_nil
  have hspace := hnewline.isSpace
  have hgap : ∀ c ∈ newline ++ newline, Text.isSpace c := by
    simpa using hspace
  have hfront : ∀ lexeme ∈ Scan.lexemes (newline ++ newline), isLoose lexeme.kind := by
    intro lexeme hlexeme
    exact isLoose_of_isWhite (Scan.isWhite_of_mem_lexemes hgap lexeme hlexeme)
  have htext := @importText_of_lexemes _ _ importOpening (newline ++ ['\t']) spec (newline ++ [')'])
    hfront (Scan.cuts_white hgap (by simp; decide)) lexemes_importOpening (by decide)
    (isSpace_tab hspace) (by simp) (@not_isImportPart_close newline [] hspace trivial (by simp))
  rw [Scan.source_lexemes] at htext
  simpa using htext

theorem importText_converted {front others tail : List Lexeme} {first : Lexeme} {newline : Text} (spec : Text)
    (hfront : ∀ lexeme ∈ front, isLoose lexeme.kind) (hcutsFront : Scan.Cuts front (some 'i'))
    (hcuts : Scan.Cuts (first :: others) none) (hnewline : IsLineEnding newline)
    (hfirst : ¬ Scan.isTrivial first.kind)
    (hlast : ∀ last ∈ (first :: others).getLast?, ¬ Scan.isTrivial last.kind ∧ last.kind ≠ .stray)
    (hcutsTail : Scan.Cuts tail none) (htail : ∀ lexeme ∈ tail, isLoose lexeme.kind) :
    ImportText ([⟨.blank, [' ']⟩, importOpen] ++ (Scan.lexemes (newline ++ ['\t']) ++ first :: others))
      (source front ++ importOpening ++ newline ++ '\t' :: source (first :: others) ++ newline ++
        '\t' :: spec ++ newline ++ ')' :: source tail) spec := by
  have hne := hnewline.ne_nil
  have hspace := hnewline.isSpace
  have htab := isSpace_tab hspace
  have hink : ∀ c ∈ (source (first :: others)).head?, ¬ Text.isSpace c := by
    intro c hc
    apply Scan.not_isSpace_head (hcuts.isCut first (by simp)) _ c
    · rwa [source_cons, Text.head?_append _ (hcuts.isCut first (by simp)).text_ne_nil] at hc
    · exact fun hwhite => hfirst (Scan.isTrivial_of_isWhite hwhite)
  have hopening : Scan.Cuts (Scan.lexemes importOpening) newline.head? := by
    apply (Scan.cuts_lexemes importOpening).extend_space (by decide)
    intro c hc
    exact hspace c (List.mem_of_mem_head? hc)
  have hlexemes : Scan.lexemes (importOpening ++ ((newline ++ ['\t']) ++ source (first :: others))) =
      importWord :: ([⟨.blank, [' ']⟩, importOpen] ++ (Scan.lexemes (newline ++ ['\t']) ++ first :: others)) := by
    rw [← Text.head?_append (['\t'] ++ source (first :: others)) hne, ← List.append_assoc] at hopening
    have happend := Scan.lexemes_append hopening
    rw [Scan.source_lexemes, lexemes_importOpening, Scan.lexemes_white htab hink, Scan.lexemes_source hcuts] at happend
    exact happend
  have htext := @importText_of_lexemes _ front _ (newline ++ ['\t']) spec (newline ++ ')' :: source tail) hfront hcutsFront
    hlexemes (by
      intro last hmem
      apply hlast last
      simpa [List.getLast?_cons, List.getLast?_append] using hmem) htab (by simp)
    (not_isImportPart_close hspace hcutsTail htail)
  simpa using htext

namespace Declaration.ReadAs

variable {declaration : Declaration} {gap rest tail : List Marked} {head : Marked}
  {frames final : List Frame}

theorem gap_cuts (hread : declaration.ReadAs gap head rest tail frames final)
    (hhead : head.kind = .keyword .importWord) : Scan.Cuts (gap.map Marked.lexeme) (some 'i') := by
  have hcuts := hread.cuts
  rw [hread.head_eq_importWord hhead, List.map_append, List.map_append, List.append_assoc] at hcuts
  exact (Scan.Cuts.append_iff.mp hcuts).1

theorem tail_cuts (hread : declaration.ReadAs gap head rest tail frames final) :
    Scan.Cuts (tail.map Marked.lexeme) none := by
  have hcuts := hread.cuts
  rw [List.map_append] at hcuts
  exact (Scan.Cuts.append_iff.mp hcuts).2

theorem importText_grouped {core white : List Marked} {close : Marked} {indent : Option Text} {newline : Text}
    (hread : declaration.ReadAs gap head (core ++ white ++ [close]) tail frames final)
    (hhead : head.kind = .keyword .importWord) (hclose : close.kind = .mark .closeParen)
    (hcore : ∀ last ∈ core.getLast?, ¬ Scan.isWhite last.kind) (hwhite : ∀ m ∈ white, Scan.isWhite m.kind)
    (hindent : ∀ given ∈ indent, given.all Text.isIndent) (spec : Text) (hnewline : IsLineEnding newline) :
    ImportText (core.map Marked.lexeme)
      (SourceFile.extendImport declaration.text (.grouped (sourceOf (gap ++ head :: (core ++ white))).length indent)
        newline spec) spec := by
  have hink : ¬ Scan.isWhite close.kind := by
    rw [hclose]
    decide
  obtain ⟨separator, hspaces, hends, hcuts, htext⟩ := hread.spliceBefore_eq hcore hwhite hink rfl hnewline indent
    (fun indent => indent ++ spec ++ newline)
  have hmark : declaration.text.drop (sourceOf (gap ++ head :: (core ++ white))).length =
      ')' :: source (tail.map Marked.lexeme) := by
    have hcut : close.lexeme.IsCut := hread.cuts.isCut close.lexeme (by simp)
    have hsource : declaration.text =
        sourceOf (gap ++ head :: (core ++ white)) ++ (close.text ++ sourceOf tail) := by
      rw [hread.text_eq]
      simp
    rw [hsource, List.drop_left, Marked.text, hcut.text_of_closeParen hclose, source_map_lexeme]
    rfl
  generalize (sourceOf (gap ++ head :: (core ++ white))).length = position at htext hmark ⊢
  have hindentSpace := Scan.isSpace_of_isIndent
    (@isIndent_spliceIndent declaration.text position indent hindent)
  obtain ⟨lineIndent, hlineIndent, hafter⟩ := spliceRest_eq declaration.text position
  generalize spliceIndent declaration.text position indent = given at htext hindentSpace
  rw [hafter, hmark] at htext
  have hne : separator ≠ [] := List.ne_nil_of_mem (List.mem_of_getLast? hends)
  rw [List.map_append, List.map_cons, hread.head_eq_importWord hhead] at hcuts htext
  have hrest := @not_isImportPart_close (newline ++ lineIndent) _ (List.forall_mem_append.mpr
    ⟨hnewline.isSpace, Scan.isSpace_of_isIndent hlineIndent⟩) hread.tail_cuts hread.isLoose_tail
  have himport := @ImportText.mk (core.map Marked.lexeme) _ (separator ++ given) spec _
    hread.isLoose_gap (Text.head?_append given hne ▸ hcuts)
    (List.forall_mem_append.mpr ⟨hspaces, hindentSpace⟩) (by simp [hne]) hrest
  unfold SourceFile.extendImport
  dsimp only
  rw [htext]
  simpa using himport

theorem extendImport_single {lead existing : List Marked}
    (hread : declaration.ReadAs gap head (lead ++ existing) tail frames final) (newline spec : Text) :
    SourceFile.extendImport declaration.text (.single (sourceOf gap).length (sourceOf (gap ++ head :: lead)).length
        (sourceOf (gap ++ head :: (lead ++ existing))).length) newline spec =
      sourceOf gap ++ importOpening ++ newline ++ '\t' :: sourceOf existing ++ newline ++ '\t' :: spec ++ newline ++
        ')' :: sourceOf tail := by
  have htext : declaration.text = sourceOf (gap ++ head :: lead) ++ sourceOf existing ++ sourceOf tail := by
    rw [hread.text_eq]
    simp
  have hstop : (sourceOf (gap ++ head :: (lead ++ existing))).length =
      (sourceOf (gap ++ head :: lead) ++ sourceOf existing).length := by
    simp
  have hstart : declaration.text.take (sourceOf gap).length = sourceOf gap := by
    rw [hread.text_eq, List.append_assoc, sourceOf_append, List.take_left]
  unfold SourceFile.extendImport
  dsimp only
  rw [hstart, hstop, htext, List.take_left, List.drop_left, List.drop_left]
  rfl

theorem importText_single {lead existing : List Marked} {newline : Text}
    (hread : declaration.ReadAs gap head (lead ++ existing) tail frames final)
    (hhead : head.kind = .keyword .importWord) (hexisting : ImportRun existing) (spec : Text)
    (hnewline : IsLineEnding newline) :
    ImportText ([⟨.blank, [' ']⟩, importOpen] ++ (Scan.lexemes (newline ++ ['\t']) ++ existing.map Marked.lexeme))
      (SourceFile.extendImport declaration.text (.single (sourceOf gap).length (sourceOf (gap ++ head :: lead)).length
        (sourceOf (gap ++ head :: (lead ++ existing))).length) newline spec) spec := by
  have hcutsExisting : Scan.Cuts (existing.map Marked.lexeme) none := by
    have hall := hread.cuts
    have hsplit : gap ++ head :: (lead ++ existing) ++ tail = (gap ++ head :: lead) ++ (existing ++ tail) := by simp
    rw [hsplit, List.map_append, @List.map_append _ _ _ existing] at hall
    exact hall.of_infix
  rw [hread.extendImport_single, ← source_map_lexeme gap, ← source_map_lexeme existing, ← source_map_lexeme tail]
  obtain ⟨first, others, rfl, hfirst, hlast⟩ := hexisting.exists_ends
  refine importText_converted spec hread.isLoose_gap (hread.gap_cuts hhead) hcutsExisting hnewline hfirst ?_
    hread.tail_cuts hread.isLoose_tail
  intro last hmem
  rw [← List.map_cons, List.getLast?_map] at hmem
  obtain ⟨m, hm, rfl⟩ := Option.map_eq_some_iff.mp hmem
  have hstring : m.lexeme.kind = .string := hlast m hm
  rw [hstring]
  decide

end Declaration.ReadAs

/-- An import declaration with a further import has parentheses and keeps its imports. -/
theorem importText_extend {text newline : Text} {specs : List ImportSpec} {layout : ImportLayout}
    (spec : Text) (hread : (Declaration.mk text (.imports specs layout)).IsRead)
    (hnewline : IsLineEnding newline) :
    ∃ kept, ImportText kept (SourceFile.extendImport text layout newline spec) spec ∧
      (∃ lexeme ∈ kept, lexeme.kind = .mark .openParen) ∧ importsIn none kept = specs ∧ openName none kept = none := by
  obtain ⟨gap, head, rest, tail, frames, final, hread⟩ := hread
  obtain ⟨hhead, -⟩ := hread.importWord_of_imports rfl
  obtain ⟨hspecs, hopen⟩ : specs = importsIn none (rest.map Marked.lexeme) ∧ _ := hread.imports_eq_importsIn hhead
  obtain ⟨lead, existing, rfl, hlead, hexisting, rfl⟩ | ⟨kept, close, indent, rfl, hclose, ⟨m, hm, hkind⟩, rfl, hindent⟩ :=
    hread.import_cases rfl
  · refine ⟨_, hread.importText_single hhead hexisting spec hnewline, ⟨importOpen, by simp, rfl⟩, ?_⟩
    have hlead : ∀ lexeme ∈ lead.map Marked.lexeme, ¬ isImportPart lexeme.kind :=
      List.forall_mem_map.mpr fun m hm => not_isImportPart_of_isLoose (isLoose_of_isTrivial (hlead m hm).2)
    have hopening : ∀ lexeme ∈ [⟨.blank, [' ']⟩, importOpen] ++ Scan.lexemes (newline ++ ['\t']),
        ¬ isImportPart lexeme.kind := by
      refine List.forall_mem_append.mpr ⟨by decide, fun lexeme hlexeme => ?_⟩
      have hwhite := isSpace_tab hnewline.isSpace
      exact not_isImportPart_of_isLoose (isLoose_of_isWhite (Scan.isWhite_of_mem_lexemes hwhite lexeme hlexeme))
    have hold := @imports_between _ (existing.map Marked.lexeme) [] hlead (by simp)
    have hnew := @imports_between _ (existing.map Marked.lexeme) [] hopening (by simp)
    simp only [List.append_nil, List.append_assoc] at hold hnew
    rw [List.map_append] at hspecs hopen
    rw [hnew.1, hnew.2, hspecs, hold.1, ← hold.2]
    exact ⟨rfl, hopen⟩
  · obtain ⟨core, white, rfl, hwhite, hcore⟩ := exists_core (fun m => Scan.isWhite m.kind) kept
    refine ⟨_, hread.importText_grouped hhead hclose hcore hwhite hindent spec hnewline, ?_, ?_⟩
    · obtain hm | hm := List.mem_append.mp hm
      · exact ⟨m.lexeme, List.mem_map_of_mem hm, hkind⟩
      · have hisWhite := hwhite m hm
        rw [hkind] at hisWhite
        cases hisWhite
    · have hignored : ∀ lexeme ∈ (white ++ [close]).map Marked.lexeme, ¬ isImportPart lexeme.kind := by
        refine List.forall_mem_map.mpr (List.forall_mem_append.mpr ⟨fun m hm => ?_, ?_⟩)
        · exact not_isImportPart_of_isLoose (isLoose_of_isWhite (hwhite m hm))
        · rw [List.forall_mem_singleton, ← Marked.kind, hclose]
          decide
      have hcore := @imports_between [] (core.map Marked.lexeme) _ (by simp) hignored
      rw [List.append_assoc, List.map_append] at hspecs hopen
      rw [hspecs, ← hcore.2]
      exact ⟨hcore.1.symm, hopen⟩

end GoGraft
