import GoGraft.Proofs.FinalNewline

/-!
# Files that begin alike

At the end of a file an item can begin, so whatever follows is read there as a file of its own, and only the gap between
the two is one. The comments in that gap that stay with an item are on the line of the item, before the newline at the
end of the first file. So a file that begins with all the lines of another has its header and its declarations.
-/

namespace GoGraft

open Grammar

theorem Scan.file_append_newline {text : Text} {last : Lexeme} (hlast : (file text).getLast? = some last)
    (hkind : last.kind = .newline) (hcut : last.IsCut) (back : Text) :
    file (text ++ back) = file text ++ lexemes back := by
  obtain ⟨kept, hkept⟩ := List.getLast?_eq_some_iff.mp hlast
  have hblank : last.kind ≠ .blank := by
    rw [hkind]
    decide
  have hcuts := @file_append text back _ _ _ hkept hblank fun c _ => hcut.endsBefore_of_newline hkind c
  rw [← hkept, source_file] at hcuts
  rw [hcuts, hkept, List.append_assoc]
  rfl

namespace Grammar

theorem splitAttached_append_newline {gap : List Marked} (hnewline : ∃ m ∈ gap, m.kind = .newline)
    (more : List Marked) : (splitAttached (gap ++ more)).1 = (splitAttached gap).1 := by
  induction gap with
  | nil => simp at hnewline
  | cons m rest ih =>
      rw [List.cons_append, splitAttached, splitAttached]
      by_cases hm : m.kind = .newline
      · rw [if_pos hm, if_pos hm]
      · rw [if_neg hm, if_neg hm]
        have hrest := ih (by simpa [hm] using hnewline)
        dsimp only
        rw [hrest]
        split <;> rfl

theorem IsGap.append {stack : List Frame} {gap other : List Marked} (hgap : IsGap stack gap)
    (hother : IsGap fileStack other) : IsGap stack (gap ++ other) :=
  ⟨List.forall_mem_append.mpr ⟨hgap.loose, hother.loose⟩, hgap.reads.append hother.reads⟩

namespace Chain

variable {stack : List Frame} {sections later : List Section} {rest after : List Marked}

/-- Two chains, one after the other, are one. Where they meet, two gaps are joined. -/
theorem append (hchain : Chain stack sections rest) (hlater : Chain fileStack later after) :
    ∃ joined ending more, Chain stack (sections ++ joined) ending ∧
      (Outline.mk (sections ++ joined) ending).marked =
        (Outline.mk sections rest).marked ++ (Outline.mk later after).marked ∧
      SourceFile.gapBefore joined ending = rest ++ more := by
  induction hchain with
  | @rest _ rest hrest =>
      cases hlater with
      | rest hafter => exact ⟨[], rest ++ after, after, .rest (hrest.append hafter), rfl, rfl⟩
      | @item _ _ _ gap body _ head sections hgap hitem hnext =>
          exact ⟨⟨rest ++ gap, head :: body⟩ :: sections, after, gap, .item (hrest.append hgap) hitem hnext,
            by simp [Outline.marked], rfl⟩
  | item hgap hitem _ ih =>
      obtain ⟨joined, ending, more, hjoined, hmarked, hmore⟩ := ih
      refine ⟨joined, ending, more, .item hgap hitem hjoined, ?_, hmore⟩
      simp only [Outline.marked, List.flatMap_cons, List.cons_append, List.append_assoc] at hmarked ⊢
      rw [hmarked]

theorem rest_ne_nil (hchain : Chain stack sections rest) (hne : sections ≠ []) : rest ≠ [] := by
  induction hchain with
  | rest => exact absurd rfl hne
  | @item _ _ final _ _ rest _ sections _ _ hchain ih =>
      cases hchain with
      | rest hrest =>
          -- The item is still open without a terminator.
          rintro rfl
          exact absurd (hrest.reads.eq_of_blank rfl).symm (ne_fileStack final)
      | item => exact ih (by simp)

end Chain

variable {marked more : List Marked} {m : Marked}

theorem Reads.getLast?_rest (hreads : Reads fileStack marked fileStack) (hne : (Outline.ofMarked marked).sections ≠ []) :
    (Outline.ofMarked marked).rest.getLast? = marked.getLast? := by
  have hrest := List.getLast?_eq_some_getLast ((chain_ofMarked hreads).rest_ne_nil hne)
  have hmarked := congrArg List.getLast? (Outline.ofMarked_marked marked)
  rw [Outline.marked, List.getLast?_append, hrest, Option.some_or] at hmarked
  rw [hrest, hmarked]

theorem Reads.outline_append (hreads : Reads fileStack marked fileStack) (hmore : Reads fileStack more fileStack) :
    ∃ joined ending between, Outline.ofMarked (marked ++ more) = ⟨(Outline.ofMarked marked).sections ++ joined, ending⟩ ∧
      SourceFile.gapBefore joined ending = (Outline.ofMarked marked).rest ++ between := by
  obtain ⟨joined, ending, between, hjoined, hmarked, hgap⟩ := (chain_ofMarked hreads).append (chain_ofMarked hmore)
  refine ⟨joined, ending, between, ?_, hgap⟩
  rw [← hjoined.ofMarked_eq, hmarked]
  exact congrArg₂ (fun left right => Outline.ofMarked (left ++ right)) (Outline.ofMarked_marked marked).symm
    (Outline.ofMarked_marked more).symm

theorem Reads.last_newline {text : Text} (hreads : Reads fileStack marked fileStack)
    (hlexemes : marked.map Marked.lexeme = Scan.file text) (hlast : text.getLast? = some '\n') :
    ∃ m, marked.getLast? = some m ∧ (Scan.file text).getLast? = some m.lexeme ∧ m.kind = .newline ∧
      m.lexeme.IsCut := by
  rw [← Scan.source_file text, ← hlexemes] at hlast
  cases hend : marked.getLast? with
  | none =>
      rw [List.getLast?_eq_none_iff.mp hend] at hlast
      cases hlast
  | some m =>
      have hmem := List.mem_of_getLast? hend
      have hstray : m.kind ≠ .stray := hreads.ne_stray (by simp [fileStack]; decide) m hmem
      have hlexeme : (marked.map Marked.lexeme).getLast? = some m.lexeme := by rw [List.getLast?_map, hend]; rfl
      obtain hcut | hmark := @Scan.isCut_file text m.lexeme (hlexemes ▸ List.mem_map_of_mem hmem)
      · rw [Lexeme.getLast?_source hlexeme hcut.text_ne_nil] at hlast
        exact ⟨m, rfl, hlexemes ▸ hlexeme, hcut.kind_eq_newline hstray hlast, hcut⟩
      · -- A byte order mark is the last lexeme only where it is all there is.
        rw [Lexeme.getLast?_source hlexeme (by rw [hmark]; simp), hmark] at hlast
        exact absurd hlast (by decide)

end Grammar

namespace SourceFile

theorem declarations_append {joined : List Section} {rest ending : List Marked}
    (hattached : (splitAttached (gapBefore joined ending)).1 = (splitAttached rest).1) (sections : List Section) :
    (splitAttached (gapBefore (sections ++ joined) ending)).1 = (splitAttached (gapBefore sections rest)).1 ∧
      (withGaps sections rest).map (fun (s, after) => declarationOf s after) <+:
        (withGaps (sections ++ joined) ending).map fun (s, after) => declarationOf s after := by
  induction sections with
  | nil => exact ⟨hattached, List.nil_prefix⟩
  | cons s sections ih =>
      obtain ⟨hgap, hprefix⟩ := ih
      refine ⟨rfl, ?_⟩
      rw [List.cons_append, withGaps_cons, withGaps_cons, List.map_cons, List.map_cons, List.cons_prefix_cons]
      refine ⟨?_, hprefix⟩
      change declarationOf s (gapBefore sections rest) = declarationOf s (gapBefore (sections ++ joined) ending)
      unfold declarationOf
      rw [hgap]

variable {front back : Text} {first file : SourceFile}

/-- A file that begins with the lines of a file begins with its header and its declarations. -/
theorem begins_of_parseTerminated (hlast : front.getLast? = some '\n') (hfirst : parseTerminated front = .ok first)
    (hfile : parseTerminated (front ++ back) = .ok file) :
    file.header = first.header ∧ first.declarations <+: file.declarations := by
  unfold parseTerminated at hfirst hfile
  split at hfirst
  case h_2 => cases hfirst
  split at hfile
  case h_2 => cases hfile
  rename_i houtline _ _ hwhole
  obtain ⟨marked, hreads, hlexemes, rfl⟩ := outline?_eq_some houtline
  obtain ⟨read, hread, hreadLexemes, rfl⟩ := outline?_eq_some hwhole
  obtain ⟨m, hend, hlexeme, hkind, hcut⟩ := hreads.last_newline hlexemes hlast
  have hsplit := Scan.file_append_newline hlexeme hkind hcut back
  rw [← hlexemes] at hsplit
  -- After the first file the machine is where it began, and reads the rest as a file.
  obtain ⟨more, rfl, -, hmore⟩ := hreads.continue_from hread (hreadLexemes.trans hsplit)
  obtain ⟨joined, ending, between, houtline, hgap⟩ := hreads.outline_append hmore
  rw [houtline] at hfile
  obtain ⟨clause, others, hsections, -, -, rfl⟩ := ofOutline_eq_ok.mp hfirst
  obtain ⟨clause', others', hsections', -, -, rfl⟩ := ofOutline_eq_ok.mp hfile
  rw [hsections, List.cons_append] at hsections'
  obtain ⟨rfl, rfl⟩ := List.cons.inj hsections'
  -- The newline is in the last gap of the first file, so what stays with the last item stands before it.
  have hrest := hreads.getLast?_rest (by simp [hsections])
  have hnewline : ∃ m ∈ (Outline.ofMarked marked).rest, m.kind = .newline :=
    ⟨m, List.mem_of_getLast? (hrest.trans hend), hkind⟩
  obtain ⟨hheader, hdeclarations⟩ := declarations_append (hgap ▸ splitAttached_append_newline hnewline between) others
  exact ⟨congrArg (clause.source ++ sourceOf ·) hheader, hdeclarations⟩

theorem begins_of_parse (hlast : front.getLast? ≠ some '\n') (hfirst : parse front = .ok first)
    (hfile : parse (front ++ '\n' :: back) = .ok file) :
    file.header = first.header ∧ first.declarations <+: file.declarations := by
  have hfront := parseTerminated_of_parse hlast hfirst
  rw [List.append_cons] at hfile
  by_cases hend : (front ++ ['\n'] ++ back).getLast? = some '\n'
  · rw [parse_eq_parseTerminated hend] at hfile
    have hbegins := begins_of_parseTerminated List.getLast?_concat hfront hfile
    exact hbegins
  · have hwhole := parseTerminated_of_parse hend hfile
    rw [List.append_assoc (front ++ ['\n'])] at hwhole
    have hbegins := begins_of_parseTerminated List.getLast?_concat hfront hwhole
    exact hbegins

end SourceFile

end GoGraft
