import GoGraft.Proofs.Rereading

/-!
# A row of declarations reads as itself

The texts of a row, put one after the other, have the lexemes of its parts, and the machine reads them with the roles
that they have in the row. So the outline of the whole text is cut where the row is, and reading the text gives the row
back.
-/

namespace GoGraft

open Grammar Scan

namespace Grammar

theorem Reads.foldlM_eq {stack next : List Frame} {marked : List Marked} (hreads : Reads stack marked next)
    (read : List Marked) :
    (marked.map Marked.lexeme).foldlM State.step ⟨stack, read⟩ = some ⟨next, marked.reverse ++ read⟩ := by
  induction hreads generalizing read with
  | refl => rfl
  | @step stack next final m marked hadvance _ ih =>
      have hstep : State.step ⟨stack, read⟩ m.lexeme = some ⟨next, m :: read⟩ := by
        unfold State.step
        rw [show m.lexeme.kind = m.kind from rfl, hadvance]
        rfl
      rw [List.map_cons, List.foldlM_cons, hstep, Option.bind_eq_bind, Option.bind_some, ih]
      simp

theorem parse_of_reads {marked : List Marked} (hreads : Reads fileStack marked fileStack) :
    parse (marked.map Marked.lexeme) = some marked := by
  unfold parse
  rw [hreads.foldlM_eq]
  simp

end Grammar

theorem Declaration.ReadAs.text_ne_nil {declaration : Declaration} {gap rest tail : List Marked} {head : Marked}
    {frames final : List Frame} (hread : declaration.ReadAs gap head rest tail frames final) :
    declaration.text ≠ [] := by
  have hhead := (hread.cuts.isCut head.lexeme (by simp)).text_ne_nil
  rw [hread.text_eq]
  simp [Marked.text, hhead]

theorem Declaration.IsRead.text_ne_nil {declaration : Declaration} (hread : declaration.IsRead) :
    declaration.text ≠ [] := by
  obtain ⟨gap, head, rest, tail, frames, final, hread⟩ := hread
  exact hread.text_ne_nil

namespace SourceFile

theorem outline?_of_chain {text : Text} {sections : List Section} {rest : List Marked}
    (hchain : Chain fileStack sections rest)
    (hfile : Scan.file text = (Outline.mk sections rest).marked.map Marked.lexeme) :
    outline? text = some ⟨sections, rest⟩ := by
  unfold outline?
  rw [hfile, parse_of_reads hchain.reads, Option.map_some, hchain.ofMarked_eq]

theorem exists_chain_of_row {exit start : List Frame} {last : Lexeme} {declarations : List Declaration} {trailer : Text}
    {tail : List Marked} (hrow : Row exit last declarations trailer) (htail : Reads start tail exit)
    (hloose : ∀ marked ∈ tail, marked.IsLoose) (hattached : IsAttached tail) :
    ∃ sections rest more, Chain start sections rest ∧ (Outline.mk sections rest).marked = tail ++ more ∧
      more.map Marked.lexeme = lexemes (declarations.flatMap Declaration.text ++ trailer) ∧
      (∀ c ∈ (declarations.flatMap Declaration.text ++ trailer).head?, last.EndsBefore c) ∧
      (∀ s ∈ sections, s.kind.isDeclaration) ∧ (splitAttached (gapBefore sections rest)).1 = tail ∧
      (withGaps sections rest).map (fun (s, after) => declarationOf s after) = declarations ∧
      sourceOf (splitAttached rest).2 = trailer := by
  induction hrow generalizing start tail with
  | @trailer stack last rest hgap hfree hcuts hends =>
      have hsplit := splitAttached_join hattached hfree
      refine ⟨[], tail ++ rest, rest, .rest ⟨?_, htail.append hgap.reads⟩, rfl, ?_, hends, by simp, ?_, rfl, ?_⟩
      · exact List.forall_mem_append.mpr ⟨hloose, hgap.loose⟩
      · rw [List.flatMap_nil, List.nil_append, ← source_map_lexeme, lexemes_source hcuts]
      · exact congrArg Prod.fst hsplit
      · rw [hsplit]
  | @declaration stack exit frames final last first gap rest after head m others trailer hgap hread hends hafter hlast
      hrow ih =>
      obtain ⟨sections, later, more, hchain, hmarked, hlexemes, hnext, hdeclares, hattached', hdeclarations, htrailer⟩ :=
        ih hafter hread.tail_loose hread.tail_attached
      have hsplit := splitAttached_join hattached hread.gap_free
      -- The section takes the attached side of the gap before it, and its declaration leaves that side out again.
      have hfirst : declarationOf ⟨tail ++ gap, head :: rest⟩ (gapBefore sections later) = first := by
        have hkind := hread.kind_eq
        have htext := hread.text_eq
        obtain ⟨text, kind⟩ := first
        simp only at hkind htext
        unfold declarationOf
        rw [hsplit, hattached', hkind, htext]
        simp [Section.kind]
      refine ⟨⟨tail ++ gap, head :: rest⟩ :: sections, later, gap ++ head :: rest ++ after ++ more,
        .item ⟨List.forall_mem_append.mpr ⟨hloose, hgap.loose⟩, htail.append hgap.reads⟩ hread.item hchain, ?_, ?_, ?_,
        List.forall_mem_cons.mpr ⟨hread.declares, hdeclares⟩, congrArg Prod.fst hsplit, ?_, htrailer⟩
      · have hcons : (Outline.mk (⟨tail ++ gap, head :: rest⟩ :: sections) later).marked =
            tail ++ gap ++ head :: rest ++ (Outline.mk sections later).marked := by
          simp [Outline.marked]
        rw [hcons, hmarked]
        simp
      · have hcuts : Cuts ((gap ++ head :: rest ++ after).map Marked.lexeme)
            (others.flatMap Declaration.text ++ trailer).head? := by
          apply hread.cuts.extend
          rw [List.append_assoc, List.map_append, List.getLast?_append, List.getLast?_map, hlast]
          simpa using hnext
        rw [List.map_append, List.flatMap_cons, List.append_assoc first.text, hread.text_eq, ← source_map_lexeme,
          lexemes_append hcuts, ← hlexemes]
      · rw [List.flatMap_cons, List.append_assoc, List.head?_append, List.head?_eq_some_head hread.text_ne_nil]
        rwa [List.head?_eq_some_head hread.text_ne_nil] at hends
      · rw [withGaps_cons, List.map_cons, hdeclarations]
        exact congrArg (· :: others) hfirst

variable {gap rest tail : List Marked} {head : Marked} {frames final exit : List Frame} {last : Lexeme}

theorem parseTerminated_of_row {header package trailer : Text} {declarations : List Declaration}
    (hheader : HasHeader header package gap head rest tail frames final exit last)
    (hrow : Row exit last declarations trailer) :
    parseTerminated (header ++ declarations.flatMap Declaration.text ++ trailer) =
      .ok ⟨header, package, declarations, trailer⟩ := by
  obtain ⟨sections, after, more, hchain, hmarked, hlexemes, hends, hdeclares, hattached, hdeclarations, htrailer⟩ :=
    exists_chain_of_row hrow hheader.tail_read hheader.tail_loose hheader.tail_attached
  have houtline : outline? (header ++ declarations.flatMap Declaration.text ++ trailer) =
      some ⟨⟨gap, head :: rest⟩ :: sections, after⟩ := by
    apply outline?_of_chain (.item hheader.gap_read hheader.item hchain)
    have hcons : (Outline.mk (⟨gap, head :: rest⟩ :: sections) after).marked =
        gap ++ head :: rest ++ (Outline.mk sections after).marked := by
      simp [Outline.marked]
    rw [List.append_assoc, hheader.file_eq hends, ← hlexemes, hcons, hmarked, ← List.map_append, List.append_assoc]
  have htext : (Section.mk gap (head :: rest)).source ++ sourceOf tail = header := by
    rw [hheader.text_eq]
    simp [Section.source]
  unfold parseTerminated
  rw [houtline]
  refine ofOutline_eq_ok.mpr ⟨_, _, rfl, hheader.clause, hdeclares, ?_⟩
  rw [hattached, hdeclarations, htrailer, htext, ← hheader.package_eq]

/-- A file whose declarations stand in a row reads as itself. -/
theorem parse_of_row {file : SourceFile}
    (hheader : HasHeader file.header file.package gap head rest tail frames final exit last)
    (hrow : Row exit last file.declarations file.ending) : parse file.render = .ok file := by
  have hread := parseTerminated_of_row hheader hrow
  unfold parse
  unfold ending at hread
  split
  · rename_i hnewline
    rw [if_pos hnewline] at hread
    exact hread
  · rename_i hnewline
    rw [if_neg hnewline, ← List.append_assoc] at hread
    have hpadded : parseTerminated (file.render ++ ['\n']) = _ := hread
    rw [hpadded]
    simp

end SourceFile

end GoGraft
