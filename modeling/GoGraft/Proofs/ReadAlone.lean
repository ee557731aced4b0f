import GoGraft.Proofs.EditedFiles

/-!
# A declaration that is read alone

An edit reads one text, behind a package clause of its own, where reading the file has read the same text behind what
stands before it there. Both readings see the same declaration: what a lexeme means does not depend on what stands
before the item, and where the item ends and what stays with it depends on its own lexemes only. Alone, the text is read
if it brings the terminator that parts it from the clause; in its file the text before it may have taken that.
-/

namespace GoGraft

open Grammar

/-- The last lexeme of an item with its comments is a comment, or it is of the item, and there no newline is the
last. -/
theorem Grammar.IsItem.end_ne_newline {head m : Marked} {rest tail : List Marked} {frames final : List Frame}
    (hitem : IsItem head rest frames final) (hhead : ¬ isLoose head.kind) (hattached : IsAttached tail)
    (hlast : (head :: rest ++ tail).getLast? = some m) : m.kind ≠ .newline := by
  rw [List.getLast?_append, Option.or_eq_some_iff] at hlast
  obtain hlast | ⟨-, hlast⟩ := hlast
  · rw [hattached.comment m hlast]
    decide
  · rw [List.getLast?_cons] at hlast
    cases hrest : rest.getLast? with
    | none =>
        rw [hrest] at hlast
        obtain rfl : head = m := Option.some.inj hlast
        intro hkind
        rw [hkind] at hhead
        exact hhead rfl
    | some last =>
        rw [hrest] at hlast
        obtain rfl : last = m := Option.some.inj hlast
        exact hitem.last_ne_newline hrest

theorem HasHeader.ne_newline {header package : Text} {gap rest tail : List Marked} {head : Marked}
    {frames final exit : List Frame} {last : Lexeme}
    (hheader : HasHeader header package gap head rest tail frames final exit last) : last.kind ≠ .newline := by
  obtain ⟨m, hlast, rfl⟩ := Option.map_eq_some_iff.mp hheader.last_eq
  exact hheader.item.end_ne_newline hheader.not_isLoose_head hheader.tail_attached hlast

namespace EndsOn

variable {lexemes : List Lexeme} {stack : List Frame} {last : Lexeme}

theorem getLast?_ne_newline (hends : EndsOn lexemes stack last) (hkind : last.kind ≠ .newline) :
    (Lexeme.source lexemes).getLast? ≠ some '\n' := by
  rw [Lexeme.getLast?_source hends.last_eq hends.cut.text_ne_nil]
  exact fun hlast => hkind (hends.cut.kind_eq_newline hends.not_stray hlast)

theorem isLineComment_of_space (hends : EndsOn lexemes stack last) (hkind : last.kind ≠ .newline) {c : Char}
    (hlast : (Lexeme.source lexemes).getLast? = some c) (hspace : Text.isSpace c) : last.isLineComment := by
  have hwhite : ¬ Scan.isWhite last.kind := by
    unfold Scan.isWhite
    split
    · exact absurd ‹_› hends.not_blank
    · exact absurd ‹_› hkind
    · exact Bool.false_ne_true
  rw [Lexeme.getLast?_source hends.last_eq hends.cut.text_ne_nil] at hlast
  exact hends.cut.isLineComment_of_space hwhite hends.not_stray hlast hspace

end EndsOn

namespace Declaration

variable {declaration other : Declaration} {gap rest tail gap' rest' tail' : List Marked} {head head' : Marked}
  {frames final frames' final' : List Frame}

/-- An item ends with its last lexeme that is not loose, so the same lexemes are cut into item and tail in one way. -/
theorem ReadAs.item_eq (hread : declaration.ReadAs gap head rest tail frames final)
    (hother : other.ReadAs gap' head' rest' tail' frames' final')
    (hmarked : head' :: rest' ++ tail' = head :: rest ++ tail) : head' :: rest' = head :: rest := by
  obtain ⟨last, hlast⟩ : ∃ last, (head :: rest).getLast? = some last := ⟨_, List.getLast?_eq_some_getLast (by simp)⟩
  obtain ⟨last', hlast'⟩ : ∃ last, (head' :: rest').getLast? = some last := ⟨_, List.getLast?_eq_some_getLast (by simp)⟩
  have hlevel := hread.item.last_level hlast
  have hlevel' := hother.item.last_level hlast'
  obtain ⟨front, hfront⟩ := List.getLast?_eq_some_iff.mp hlast
  obtain ⟨front', hfront'⟩ := List.getLast?_eq_some_iff.mp hlast'
  have hbackwards : tail'.reverse ++ last' :: front'.reverse = tail.reverse ++ last :: front.reverse := by
    rw [hfront, hfront'] at hmarked
    simpa using congrArg List.reverse hmarked
  obtain ⟨-, rfl, hfronts⟩ := @split_first _ (fun m => 4 < m.role.level) _ _ _ _ _ _ hbackwards
    (fun m hm => by simpa using (hother.tail_loose m (List.mem_reverse.mp hm)).not_level)
    (fun m hm => by simpa using (hread.tail_loose m (List.mem_reverse.mp hm)).not_level)
    (by simpa using hlevel') (by simpa using hlevel)
  rw [hfront, hfront', List.reverse_inj.mp hfronts]

theorem IsRead.eq_of_text (hread : declaration.IsRead) (hother : other.IsRead) (htext : other.text = declaration.text) :
    other = declaration := by
  obtain ⟨gap, head, rest, tail, frames, final, hread⟩ := hread
  obtain ⟨gap', head', rest', tail', frames', final', hother⟩ := hother
  obtain ⟨exit, htail⟩ := hread.tail_read
  obtain ⟨exit', htail'⟩ := hother.tail_read
  obtain ⟨hgap, hmarked, -⟩ := hread.same_reading hother htext htail htail'
  have hitem := hread.item_eq hother hmarked
  have hkind : other.kind = declaration.kind := by
    rw [hread.kind_eq, hother.kind_eq, hitem]
    exact Structure.kindOf_congr _ hother.gap_loose hread.gap_loose hgap
  cases declaration
  cases other
  exact congr (congrArg Declaration.mk htext) hkind

theorem EndsAt.ne_newline {exit : List Frame} {last : Lexeme} (hends : declaration.EndsAt exit last) :
    last.kind ≠ .newline := by
  obtain ⟨gap, head, rest, tail, frames, final, m, hread, -, hlast, rfl⟩ := hends
  exact hread.item.end_ne_newline hread.not_isLoose_head hread.tail_attached hlast

theorem IsRead.getLast?_ne_newline (hread : declaration.IsRead) : declaration.text.getLast? ≠ some '\n' := by
  obtain ⟨exit, last, hends⟩ := hread.exists_endsAt
  have hlast := hends.endsOn.getLast?_ne_newline hends.ne_newline
  rwa [Scan.source_lexemes] at hlast

end Declaration

namespace SourceFile

theorem parse_snippetHeader : parse snippetHeader = .ok ⟨snippetHeader, "snippet".toList, [], []⟩ := by
  decide

theorem isTerminated_snippetHeader :
    isTerminated (Scan.file snippetHeader) = false ∧ endsInLineComment (Scan.file snippetHeader) = false := by
  decide

variable {declaration : Declaration}

theorem ending_alone (package : Text) (hread : declaration.IsRead) : (alone package declaration).ending = ['\n'] := by
  have hne := hread.text_ne_nil
  have hlast : (alone package declaration).render.getLast? ≠ some '\n' := by
    rw [render_alone, List.getLast?_append, List.getLast?_eq_some_getLast hne, Option.some_or,
      ← List.getLast?_eq_some_getLast hne]
    exact hread.getLast?_ne_newline
  rw [ending, if_neg hlast]
  rfl

/-- Behind the clause there is room for a declaration that begins with a terminator, whichever it is. -/
theorem isClean_alone (package : Text) (hread : declaration.IsRead) :
    (∀ seam ∈ (alone package declaration).seams, (alone package declaration).isClean seam) ↔
      (leadingTerminator? (Scan.lexemes declaration.text)).isSome := by
  obtain ⟨hopen, hline⟩ := isTerminated_snippetHeader
  have hseams : (alone package declaration).seams = [(none, some declaration), (some declaration, none)] := rfl
  have hfirst : (alone package declaration).isClean (none, some declaration) =
      (leadingTerminator? (Scan.lexemes declaration.text)).isSome := by
    have hleft : (alone package declaration).leftLexemes none = Scan.file snippetHeader := rfl
    have hright : (alone package declaration).rightText (some declaration) = declaration.text := rfl
    simp only [isClean, hleft, hright, hopen, hline]
    cases leadingTerminator? (Scan.lexemes declaration.text) <;> simp
  have hlast : (alone package declaration).isClean (some declaration, none) := by
    have hright : (alone package declaration).rightText none = ['\n'] := ending_alone package hread
    have hlead : leadingTerminator? (Scan.lexemes ['\n']) = some .newline := rfl
    simp [isClean, hright, hlead]
  rw [hseams, List.forall_mem_cons, List.forall_mem_singleton, hfirst]
  exact and_iff_left hlast

end SourceFile

namespace Declaration

variable {declaration : Declaration}

/-- A declaration can be read on its own exactly if its text brings the terminator that parts it from the clause. -/
theorem IsRead.parse_text (hread : declaration.IsRead) :
    parse declaration.text = .ok declaration ↔ (leadingTerminator? (Scan.lexemes declaration.text)).isSome := by
  rw [parse_eq_ok]
  constructor
  · rintro ⟨package, hparse⟩
    exact (SourceFile.isClean_alone package hread).mp (SourceFile.isClean_of_parse hparse)
  · intro hlead
    let package := "snippet".toList
    have hfile : (SourceFile.alone package declaration).IsRead := List.forall_mem_singleton.mpr hread
    have hrender := @SourceFile.parse_render_iff _ (.alone package declaration) _ SourceFile.parse_snippetHeader rfl rfl
      rfl hfile
    rw [SourceFile.render_alone, SourceFile.isClean_alone package hread] at hrender
    exact ⟨package, hrender.mpr hlead⟩

/-- A declaration of a file, read on its own, is the same declaration: with the same text, and with the same structure
and positions in it. And it can be read on its own exactly if its text brings a terminator. -/
theorem parse_text_of_file {text : Text} {file : SourceFile} (hparse : SourceFile.parse text = .ok file)
    (hmem : declaration ∈ file.declarations) (other : Declaration) :
    parse declaration.text = .ok other ↔
      other = declaration ∧ (leadingTerminator? (Scan.lexemes declaration.text)).isSome := by
  have hread := SourceFile.isRead_of_parse hparse declaration hmem
  constructor
  · intro hother
    obtain ⟨hotherRead, htext⟩ := isRead_of_parse hother
    obtain rfl := hread.eq_of_text hotherRead htext
    exact ⟨rfl, hread.parse_text.mp hother⟩
  · rintro ⟨rfl, hlead⟩
    exact hread.parse_text.mpr hlead

-- The clause has taken the first terminator, with the comment behind it; the second stays with the other declaration.
theorem parse_text_of_file_commented :
    let text := "package a; /* a */ type A int\n\n// B\ntype B struct \x7b\n\tX int // x\n\x7d // b\n".toList
    ∃ file first second, SourceFile.parse text = .ok file ∧ file.declarations = [first, second] ∧
      (∀ other, parse first.text ≠ .ok other) ∧ parse second.text = .ok second := by
  repeat rw [String.toList_ofList]
  intro text
  have hrun : (SourceFile.parse text).toOption.any fun file =>
      decide (file.declarations.map (fun declaration =>
        (leadingTerminator? (Scan.lexemes declaration.text)).isSome) = [false, true]) := by
    decide +kernel
  obtain ⟨file, hstart, hrun⟩ := (Option.any_eq_true ..).mp hrun
  obtain ⟨first, others, hfile, hfirst, hothers⟩ := List.map_eq_cons_iff.mp (of_decide_eq_true hrun)
  obtain ⟨second, none, rfl, hsecond, hnone⟩ := List.map_eq_cons_iff.mp hothers
  obtain rfl := List.map_eq_nil_iff.mp hnone
  have hparse := eq_ok_of_toOption hstart
  refine ⟨file, first, second, hparse, hfile, fun other hother => ?_, ?_⟩
  · have hlead := ((parse_text_of_file hparse (by simp [hfile]) other).mp hother).2
    exact absurd (hfirst.symm.trans hlead) nofun
  · exact (parse_text_of_file hparse (by simp [hfile]) second).mpr ⟨rfl, hsecond⟩

end Declaration

end GoGraft
