import GoGraft.Proofs.Boundaries
import GoGraft.Proofs.Rows
import GoGraft.Proofs.Splices

/-!
# Declarations with the lexemes that they were read from

An edit keeps the beginning of a declaration and writes something after it. Read again, what was kept has the lexemes
and the roles that it had before, and the machine comes to what was written with the stack that it had there.
-/

namespace GoGraft

open Grammar Lexeme

theorem isLoose_of_isWhite {kind : LexemeKind} (hwhite : Scan.isWhite kind) : isLoose kind := by
  cases kind <;> first | rfl | cases hwhite

theorem isLoose_of_isTrivial {kind : LexemeKind} (htrivial : Scan.isTrivial kind) : isLoose kind := by
  cases kind <;> first | rfl | cases htrivial

theorem Scan.lexemes_source {cut : List Lexeme} (hcuts : Cuts cut none) :
    lexemes (source cut) = cut := by
  have happend := @lexemes_append cut [] hcuts
  rwa [List.append_nil, lexemes_eq_emit [], emit, List.append_nil] at happend

theorem split_before_tail {α : Type} {p : α → Bool} {rest tail front back : List α} {a : α}
    (hsplit : rest ++ tail = front ++ a :: back) (htail : ∀ other ∈ tail, p other) (ha : ¬ p a) :
    ∃ more, rest = front ++ a :: more ∧ back = more ++ tail := by
  obtain ⟨more, hfront, hmore⟩ | ⟨more, hfront, hmore⟩ := List.append_eq_append_iff.mp hsplit
  · exact absurd (htail a (hmore ▸ by simp)) ha
  · cases more with
    | nil =>
        rw [List.nil_append] at hmore
        exact absurd (htail a (hmore ▸ by simp)) ha
    | cons first more =>
        obtain ⟨rfl, hback⟩ := List.cons.inj hmore
        exact ⟨more, hfront, hback⟩

theorem split_after_head {α : Type} {p : α → Bool} {head rest front back : List α} {a : α}
    (hsplit : head ++ rest = front ++ a :: back) (hhead : ∀ other ∈ head, p other) (ha : ¬ p a) :
    ∃ more, front = head ++ more ∧ rest = more ++ a :: back := by
  obtain ⟨more, hfront, hmore⟩ | ⟨more, hfront, hmore⟩ := List.append_eq_append_iff.mp hsplit
  · exact ⟨more, hfront, hmore⟩
  · cases more with
    | nil => exact ⟨[], by simpa using hfront.symm, by simpa using hmore.symm⟩
    | cons first more =>
        obtain ⟨rfl, -⟩ := List.cons.inj hmore
        exact absurd (hhead a (hfront ▸ by simp)) ha

theorem split_first {α : Type} {p : α → Bool} {front front' back back' : List α} {a a' : α}
    (hsplit : front ++ a :: back = front' ++ a' :: back') (hfront : ∀ other ∈ front, p other)
    (hfront' : ∀ other ∈ front', p other) (ha : ¬ p a) (ha' : ¬ p a') : front = front' ∧ a = a' ∧ back = back' := by
  have htake := congrArg (List.takeWhile p) hsplit
  rw [List.takeWhile_append_of_pos hfront, List.takeWhile_append_of_pos hfront', List.takeWhile_cons,
    List.takeWhile_cons, if_neg ha, if_neg ha', List.append_nil, List.append_nil] at htake
  rw [htake] at hsplit
  exact ⟨htake, List.cons.inj (List.append_cancel_left hsplit)⟩

/-- Only a statement can begin with a lexeme that may stand between items: an empty one. -/
theorem Grammar.Section.not_isLoose_head {gap rest : List Marked} {head : Marked}
    (hkind : (Section.mk gap (head :: rest)).kind ≠ .statement) : ¬ isLoose head.kind := by
  intro hloose
  unfold isLoose at hloose
  split at hloose
  case h_6 => cases hloose
  all_goals
    rename_i hhead
    simp [Section.kind, hhead] at hkind

namespace Declaration.ReadAs

variable {declaration : Declaration} {gap rest tail : List Marked} {head : Marked}
  {frames final : List Frame}

theorem lexemes (hread : declaration.ReadAs gap head rest tail frames final) :
    Scan.lexemes declaration.text = (gap ++ head :: rest ++ tail).map Marked.lexeme := by
  rw [hread.text_eq, ← source_map_lexeme]
  exact Scan.lexemes_source hread.cuts

theorem not_isLoose_head (hread : declaration.ReadAs gap head rest tail frames final) :
    ¬ isLoose head.kind := by
  apply @Section.not_isLoose_head gap rest
  intro hkind
  have hdeclares := hread.declares
  rw [hkind] at hdeclares
  cases hdeclares

theorem ne_stray (hread : declaration.ReadAs gap head rest tail frames final) :
    ∀ marked ∈ gap ++ head :: rest ++ tail, marked.kind ≠ .stray := by
  have hloose {marked : Marked} (hmarked : marked.IsLoose) : marked.kind ≠ .stray := by
    intro hstray
    have hkind := hmarked.2
    rw [hstray] at hkind
    cases hkind
  intro marked hmarked
  simp only [List.mem_append, List.mem_cons] at hmarked
  obtain (hgap | rfl | hmem) | htail := hmarked
  · exact hloose (hread.gap_loose marked hgap)
  · exact (Reads.step hread.head_opens (.refl _)).ne_stray (by simp [fileStack]; decide) marked (by simp)
  · exact hread.rest_reads.ne_stray (hread.frames_below.mono (by decide)) marked hmem
  · exact hloose (hread.tail_loose marked htail)

theorem lexemes_ne_stray (hread : declaration.ReadAs gap head rest tail frames final) :
    ∀ lexeme ∈ Scan.lexemes declaration.text, lexeme.kind ≠ .stray := by
  intro lexeme hlexeme
  rw [hread.lexemes] at hlexeme
  obtain ⟨marked, hmarked, rfl⟩ := List.mem_map.mp hlexeme
  exact hread.ne_stray marked hmarked

theorem isLoose_gap (hread : declaration.ReadAs gap head rest tail frames final) :
    ∀ lexeme ∈ gap.map Marked.lexeme, isLoose lexeme.kind := by
  intro lexeme hlexeme
  obtain ⟨marked, hmarked, rfl⟩ := List.mem_map.mp hlexeme
  exact (hread.gap_loose marked hmarked).2

theorem split_lexemes {front others : List Lexeme} {first : Lexeme}
    (hread : declaration.ReadAs gap head rest tail frames final)
    (hlexemes : Scan.lexemes declaration.text = front ++ first :: others)
    (hfront : ∀ lexeme ∈ front, isLoose lexeme.kind) (hfirst : ¬ isLoose first.kind) :
    gap.map Marked.lexeme = front ∧ head.lexeme = first ∧
      rest.map Marked.lexeme ++ tail.map Marked.lexeme = others := by
  have hhead : ¬ isLoose head.lexeme.kind := hread.not_isLoose_head
  rw [hread.lexemes] at hlexemes
  simp only [List.map_append, List.map_cons, List.append_assoc, List.cons_append] at hlexemes
  exact @split_first _ (fun lexeme => isLoose lexeme.kind) _ _ _ _ _ _ hlexemes hread.isLoose_gap hfront hhead hfirst

theorem isLoose_tail (hread : declaration.ReadAs gap head rest tail frames final) :
    ∀ lexeme ∈ tail.map Marked.lexeme, isLoose lexeme.kind := by
  intro lexeme hlexeme
  obtain ⟨marked, hmarked, rfl⟩ := List.mem_map.mp hlexeme
  exact (hread.tail_loose marked hmarked).2

theorem split_rest {front back : List Lexeme} {lexeme : Lexeme}
    (hread : declaration.ReadAs gap head rest tail frames final)
    (hrest : rest.map Marked.lexeme ++ tail.map Marked.lexeme = front ++ lexeme :: back)
    (hlexeme : ¬ isLoose lexeme.kind) :
    ∃ more, rest.map Marked.lexeme = front ++ lexeme :: more ∧ back = more ++ tail.map Marked.lexeme :=
  @split_before_tail _ (fun lexeme => isLoose lexeme.kind) _ _ _ _ _ hrest hread.isLoose_tail hlexeme

/-- The last lexeme before the white space at the end of a part of an item. -/
theorem exists_last_ink {core more : List Marked} (hread : declaration.ReadAs gap head (core ++ more) tail frames final)
    (hcore : ∀ last ∈ core.getLast?, ¬ Scan.isWhite last.kind) :
    ∃ last : Marked, ((gap ++ head :: core).map Marked.lexeme).getLast? = some last.lexeme ∧
      ¬ Scan.isWhite last.kind ∧ last.kind ≠ .stray := by
  cases hend : core.getLast? with
  | none =>
      obtain rfl := List.getLast?_eq_none_iff.mp hend
      refine ⟨head, by simp, ?_, hread.ne_stray head (by simp)⟩
      intro hhead
      exact hread.not_isLoose_head (isLoose_of_isWhite hhead)
  | some last =>
      have hmem := List.mem_of_getLast? hend
      refine ⟨last, ?_, hcore last hend, hread.ne_stray last (by simp [hmem])⟩
      simp [List.getLast?_map, List.getLast?_append, List.getLast?_cons, hend]

/-- The text of a declaration with an entry before a mark of its item. What precedes the mark is kept, up to white
space at its end. -/
theorem spliceBefore_eq {core white after : List Marked} {m : Marked}
    (hread : declaration.ReadAs gap head (core ++ white ++ m :: after) tail frames final)
    (hcore : ∀ last ∈ core.getLast?, ¬ Scan.isWhite last.kind)
    (hwhite : ∀ marked ∈ white, Scan.isWhite marked.kind) (hm : ¬ Scan.isWhite m.kind)
    {close : Nat} (hclose : close = (sourceOf (gap ++ head :: (core ++ white))).length)
    {newline : Text} (hnewline : IsLineEnding newline) (indent : Option Text) (entry : Text → Text) :
    ∃ before, (∀ c ∈ before, Text.isSpace c) ∧ before.getLast? = some '\n' ∧
      Scan.Cuts ((gap ++ head :: core).map Marked.lexeme) before.head? ∧
      GoGraft.spliceBefore declaration.text close indent newline entry =
        source ((gap ++ head :: core).map Marked.lexeme) ++
          (before ++ (entry (spliceIndent declaration.text close indent) ++
            spliceRest declaration.text close)) := by
  have hcuts := hread.cuts
  have hmcut : m.lexeme.IsCut := hcuts.isCut m.lexeme (by simp)
  obtain ⟨c, more, hc⟩ := List.exists_cons_of_ne_nil hmcut.text_ne_nil
  have hink : ¬ Text.isSpace c := Scan.not_isSpace_head hmcut hm c (by rw [hc]; rfl)
  have hsplit : (gap ++ head :: (core ++ white ++ m :: after) ++ tail).map Marked.lexeme =
      ((gap ++ head :: core).map Marked.lexeme ++ white.map Marked.lexeme) ++
        m.lexeme :: (after ++ tail).map Marked.lexeme := by
    simp
  have htext : declaration.text =
      source ((gap ++ head :: core).map Marked.lexeme ++ white.map Marked.lexeme) ++
        c :: (more ++ source ((after ++ tail).map Marked.lexeme)) := by
    rw [hread.text_eq, ← source_map_lexeme, hsplit, source_append, source_cons, hc]
    rfl
  have hbefore : close =
      (source ((gap ++ head :: core).map Marked.lexeme ++ white.map Marked.lexeme)).length := by
    rw [hclose, ← source_map_lexeme]
    simp
  obtain ⟨last, hlast, hlastInk, hstray⟩ := exists_last_ink (List.append_assoc core white _ ▸ hread) hcore
  rw [hsplit] at hcuts
  have hcutsMark := (Scan.Cuts.append_iff.mp hcuts).1
  rw [source_cons, hc] at hcutsMark
  have hwhiteLexemes : ∀ lexeme ∈ white.map Marked.lexeme, Scan.isWhite lexeme.kind := by
    intro lexeme hlexeme
    obtain ⟨marked, hmarked, rfl⟩ := List.mem_map.mp hlexeme
    exact hwhite marked hmarked
  exact Scan.spliceBefore_eq indent entry hcutsMark hlast hlastInk hstray hwhiteLexemes hink hnewline
    htext hbefore

theorem head_eq {other : Declaration} {gap' rest' tail' : List Marked} {head' : Marked}
    {frames' final' : List Frame} (hread : declaration.ReadAs gap head rest tail frames final)
    (hother : other.ReadAs gap' head' rest' tail' frames' final') (hlexeme : head'.lexeme = head.lexeme) :
    head' = head ∧ frames' = frames := by
  have hopens := hother.head_opens
  have hkind : head'.kind = head.kind := congrArg Lexeme.kind hlexeme
  rw [hkind, hread.head_opens] at hopens
  obtain ⟨hrole, hframes⟩ := Prod.mk.inj (Option.some.inj hopens)
  refine ⟨?_, (List.append_cancel_right hframes).symm⟩
  cases head
  cases head'
  simp_all

/-- What is kept of a declaration is read as before, up to a lexeme of the item that was written after it. -/
theorem reread {other : Declaration} {gap' rest' tail' kept cut : List Marked} {head' : Marked}
    {frames' final' middle : List Frame} {written : Text} {front back : List Lexeme} {lexeme : Lexeme}
    (hread : declaration.ReadAs gap head (kept ++ cut) tail frames final)
    (hkept : Reads frames kept middle)
    (hother : other.ReadAs gap' head' rest' tail' frames' final')
    (hcuts : Scan.Cuts ((gap ++ head :: kept).map Marked.lexeme) written.head?)
    (htext : other.text = source ((gap ++ head :: kept).map Marked.lexeme) ++ written)
    (hwritten : Scan.lexemes written = front ++ lexeme :: back) (hlexeme : ¬ isLoose lexeme.kind) :
    gap'.map Marked.lexeme = gap.map Marked.lexeme ∧ head' = head ∧ frames' = frames ∧
      ∃ added more, rest' = kept ++ added ∧ Reads middle added final' ∧
        added.map Marked.lexeme = front ++ lexeme :: more ∧
        back = more ++ tail'.map Marked.lexeme := by
  have hlexemes : Scan.lexemes other.text = gap.map Marked.lexeme ++
      head.lexeme :: ((kept.map Marked.lexeme ++ front) ++ lexeme :: back) := by
    rw [htext, Scan.lexemes_append hcuts, hwritten]
    simp
  obtain ⟨hgap', hhead', hrest'⟩ := hother.split_lexemes hlexemes hread.isLoose_gap hread.not_isLoose_head
  obtain ⟨more, hmore, hback⟩ := hother.split_rest hrest' hlexeme
  obtain ⟨rfl, rfl⟩ := hread.head_eq hother hhead'
  rw [List.append_assoc] at hmore
  obtain ⟨added, rfl, hadded, hreads⟩ := hkept.continue_from hother.rest_reads hmore
  exact ⟨hgap', rfl, rfl, added, more, rfl, hreads, hadded, hback⟩

end Declaration.ReadAs

end GoGraft
