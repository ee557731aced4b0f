import GoGraft.Proofs.FieldInsertion

/-!
# Fields that stay within their struct type

The type and the tag of a field are written as they were given, so that the line of a field can hold more than a field:
it can close the struct type and go on with other types. Where it does not, the types around the struct type stay as
they are, and the struct type has its fields and the new ones.
-/

namespace GoGraft

open Grammar Lexeme

/-- The fields that whole lines between the braces of a struct type are read as. -/
def readFields (text : Text) : Option (List Field) := do
  let state ← (Scan.lexemes text).foldlM State.step ⟨[.type (.fields true)], []⟩
  if state.stack = [.type (.fields true)] ∧ (Scan.lexemes text).getLast?.any (·.kind = .newline) then
    some (Structure.fieldsIn (Structure.place 0 state.read.reverse))
  else
    none

/-- The line of the field is read as fields, one of which has its name. -/
def NewField.isWhole (field : NewField) : Bool :=
  [['\n'], ['\r', '\n']].all fun newline =>
    (readFields (field.line newline)).any fun fields => field.name ∈ fields.map Field.name

/-- The line of the field is read as fields, whatever their names are. -/
def NewField.isContained (field : NewField) : Bool :=
  [['\n'], ['\r', '\n']].all fun newline => (readFields (field.line newline)).isSome

theorem NewField.isContained_of_isWhole {field : NewField} (hwhole : field.isWhole) : field.isContained := by
  apply List.all_eq_true.mpr
  intro newline hnewline
  obtain ⟨fields, hfields, -⟩ := (Option.any_eq_true ..).mp (List.all_eq_true.mp hwhole newline hnewline)
  rw [hfields]
  rfl

theorem readFields_eq_some {text : Text} {fields : List Field} (hfields : readFields text = some fields) :
    ∃ marked, marked.map Marked.lexeme = Scan.lexemes text ∧
      Reads [.type (.fields true)] marked [.type (.fields true)] ∧ (∀ m ∈ marked, m.role.IsBody) ∧
      fields = Structure.fieldsIn (Structure.place 0 marked) ∧
      ∀ rest, Scan.lexemes (text ++ rest) = Scan.lexemes text ++ Scan.lexemes rest := by
  obtain ⟨state, hfold, hfields⟩ := Option.bind_eq_some_iff.mp hfields
  obtain ⟨marked, hreads, hlexemes, hread⟩ := Reads.foldlM_step hfold
  split at hfields
  · rename_i hstate
    obtain ⟨hstack, hnewline⟩ := hstate
    obtain rfl := Option.some.inj hfields
    rw [hstack] at hreads
    refine ⟨marked, hlexemes, hreads, ?_, by simp [hread], ?_⟩
    · obtain ⟨-, hroles⟩ | ⟨body, close, rest, last, -, -, hrest⟩ := hreads.split_close (.inl rfl)
      · exact hroles
      · cases hrest.of_nil.1
    · intro rest
      obtain ⟨last, hlast, hkind⟩ := (Option.any_eq_true ..).mp hnewline
      have hcuts : Scan.Cuts (Scan.lexemes text) rest.head? := by
        apply (Scan.cuts_lexemes text).extend
        intro lexeme hlexeme c _
        obtain rfl := Option.some.inj (hlast.symm.trans hlexeme)
        exact ((Scan.cuts_lexemes text).isCut last (List.mem_of_getLast? hlast)).endsBefore_of_newline
          (of_decide_eq_true hkind) c
      have happend := Scan.lexemes_append hcuts
      rwa [Scan.source_lexemes] at happend
  · cases hfields

theorem NewField.exists_readFields {field : NewField} {newline : Text} (hcontained : field.isContained)
    (hnewline : IsLineEnding newline) :
    ∃ fields, readFields (field.line newline) = some fields ∧
      (field.isWhole → field.name ∈ fields.map Field.name) := by
  have hlisted : newline ∈ [['\n'], ['\r', '\n']] := by
    obtain rfl | rfl := hnewline <;> simp
  obtain ⟨fields, hfields⟩ := Option.isSome_iff_exists.mp (List.all_eq_true.mp hcontained newline hlisted)
  refine ⟨fields, hfields, ?_⟩
  intro hwhole
  have hnames := List.all_eq_true.mp hwhole newline hlisted
  rw [hfields] at hnames
  exact of_decide_eq_true hnames

theorem Structure.laterParts_of_close {front : List Marked} {close : Marked} (rest other : List Marked) (start : Nat)
    (hclose : close.role = .groupClose) :
    laterParts start (front ++ close :: rest) = laterParts start (front ++ close :: other) := by
  have htake (start : Nat) (front rest : List Marked) :
      (place start (front ++ close :: rest)).takeWhile (·.role ≠ .groupClose) =
        (place start front).takeWhile (·.role ≠ .groupClose) := by
    induction front generalizing start with
    | nil => simp [place, Placed.role, hclose]
    | cons m front ih =>
        rw [List.cons_append, place, place, List.takeWhile_cons, List.takeWhile_cons]
        split
        · rw [ih]
        · rfl
  cases front with
  | nil => simp [laterParts, hclose]
  | cons first front => simp only [List.cons_append, laterParts, htake]

namespace Declaration.HasRecord

variable {declaration edited : Declaration} {before others : List TypeSpec} {spec : TypeSpec} {record : Record}
  {gap front body white trivia after tail : List Marked} {head close : Marked} {inside bottom final : List Frame}

/-- From the closing brace on, the lexemes of the declaration follow a field. -/
theorem lexemes_spliceRest
    (hrecord : declaration.HasRecord before spec others record gap head front body white close trivia after tail
      inside bottom final) :
    ∃ indent, (∀ lexeme ∈ indent, Scan.isTrivial lexeme.kind) ∧
      Scan.lexemes (spliceRest declaration.text record.close) =
        indent ++ close.lexeme :: (trivia ++ after ++ tail).map Marked.lexeme := by
  obtain ⟨indent, hindent, hrest⟩ := spliceRest_eq declaration.text record.close
  have hcuts := hrecord.readAs.cuts
  have hsplit : (gap ++ head :: (front ++ body ++ white ++ close :: (trivia ++ after)) ++ tail).map Marked.lexeme =
      (gap ++ head :: (front ++ body ++ white)).map Marked.lexeme ++
        (close :: (trivia ++ after ++ tail)).map Marked.lexeme := by
    simp
  rw [hsplit] at hcuts
  have hdrop : declaration.text.drop record.close =
      source ((close :: (trivia ++ after ++ tail)).map Marked.lexeme) := by
    rw [hrecord.readAs.text_eq, ← source_map_lexeme, hsplit, source_append, hrecord.close_eq, ← source_map_lexeme,
      List.drop_left]
  have hclose : close.lexeme.IsCut := hcuts.isCut close.lexeme (by simp)
  have hink : ∀ c ∈ (declaration.text.drop record.close).head?, ¬ Text.isSpace c := by
    intro c hc
    rw [hdrop, List.map_cons, source_cons, Text.head?_append _ hclose.text_ne_nil] at hc
    refine Scan.not_isSpace_head hclose ?_ c hc
    have hkind : close.lexeme.kind = .mark .closeBrace := hrecord.close_kind
    rw [hkind]
    nofun
  have hspace := Scan.isSpace_of_isIndent hindent
  refine ⟨Scan.lexemes indent, ?_, ?_⟩
  · intro lexeme hlexeme
    exact Scan.isTrivial_of_isWhite (Scan.isWhite_of_mem_lexemes hspace lexeme hlexeme)
  · rw [hrest, Scan.lexemes_white hspace hink, hdrop, Scan.lexemes_source (Scan.Cuts.append_iff.mp hcuts).2]
    rfl

theorem exists_after {more tail' : List Marked} {final' : List Frame}
    (hrecord : declaration.HasRecord before spec others record gap head front body white close trivia after tail
      inside bottom final)
    (hreads : Reads bottom more final') (htail : ∀ lexeme ∈ tail'.map Marked.lexeme, isLoose lexeme.kind)
    (hlexemes : more.map Marked.lexeme ++ tail'.map Marked.lexeme = (trivia ++ after ++ tail).map Marked.lexeme) :
    ∃ trivia' after', more = trivia' ++ after' ∧ (∀ m ∈ trivia', m.role = .trivia) ∧
      (bottom = [] → after' = []) ∧ (∀ m ∈ after'.head?, m.role = .groupSplit ∨ m.role = .groupClose) ∧
      Structure.specsIn (Structure.laterParts 0 after') = others.map TypeSpec.unplaced := by
  obtain rfl | rfl := hrecord.recordAt.specBottom
  · refine ⟨more, [], by simp, hreads.of_nil.2, fun _ => rfl, by simp, ?_⟩
    rw [hrecord.others_eq, hrecord.after_nil rfl]
  · have hleaves := hrecord.readAs.ends
    obtain ⟨inner, parenthesis, rest, hsplit, hinner, hrole, hkind, -, hrest⟩ :=
      hrecord.after_reads.split_group (.inr ⟨[], by simp, rfl⟩) hleaves
    obtain ⟨earlier, rfl, hafter⟩ : ∃ earlier, inner = trivia ++ earlier ∧ after = earlier ++ parenthesis :: rest := by
      obtain ⟨earlier, hinner, hafter⟩ | ⟨later, htrivia, hlater⟩ := List.append_eq_append_iff.mp hsplit
      · exact ⟨earlier, hinner, hafter⟩
      · cases later with
        | nil => exact ⟨[], by simpa using htrivia.symm, by simpa using hlater.symm⟩
        | cons first later =>
            obtain ⟨rfl, -⟩ := List.cons.inj hlater
            cases (hrecord.trivia_role parenthesis (by simp [htrivia])).symm.trans hrole
    have hlexemes' : more.map Marked.lexeme ++ tail'.map Marked.lexeme = (trivia ++ earlier).map Marked.lexeme ++
        parenthesis.lexeme :: (rest ++ tail).map Marked.lexeme := by
      rw [hlexemes, hsplit]
      simp
    have hloose : ¬ isLoose parenthesis.lexeme.kind := by
      have hkind : parenthesis.lexeme.kind = .mark .closeParen := hkind
      rw [hkind]
      nofun
    obtain ⟨back, hmore, -⟩ :=
      @split_before_tail _ (fun lexeme => isLoose lexeme.kind) _ _ _ _ _ hlexemes' htail hloose
    obtain ⟨last, rfl, -, hlast⟩ := hinner.continue_from hreads
      (show more.map Marked.lexeme = (trivia ++ earlier ++ [parenthesis]).map Marked.lexeme ++ back by simp [hmore])
    refine ⟨trivia, earlier ++ parenthesis :: last, by simp, hrecord.trivia_role, nofun, ?_, ?_⟩
    · intro m hm
      apply hrecord.after_head m
      rw [hafter]
      cases earlier with
      | nil => exact hm
      | cons => exact hm
    · rw [hrecord.others_eq, hafter, Structure.laterParts_of_close last rest 0 hrole]

/-- With a line that is read as fields the struct type has these fields more, and all other types are as they were. -/
theorem typeSpecs_of_line {field : NewField} {newline : Text} {line : List Marked}
    (hrecord : declaration.HasRecord before spec others record gap head front body white close trivia after tail
      inside bottom final)
    (hname : isIdentifier field.name) (hnewline : IsLineEnding newline)
    (hparse : Declaration.parse (spliceBefore declaration.text record.close record.indent newline
      fun indent => field.render indent newline) = .ok edited)
    (hline : Scan.lexemes (field.line newline ++ spliceRest declaration.text record.close) =
      line.map Marked.lexeme ++ Scan.lexemes (spliceRest declaration.text record.close))
    (hlineReads : Reads (.type (.fields true) :: bottom) line (.type (.fields true) :: bottom))
    (hlineRoles : ∀ m ∈ line, m.role.IsBody) :
    ∃ before' record' others', edited.typeSpecs = before' ++ ⟨spec.name, spec.isAlias, .record record'⟩ :: others' ∧
      before'.map TypeSpec.unplaced = before.map TypeSpec.unplaced ∧
      record'.fields = record.fields ++ Structure.fieldsIn (Structure.place 0 line) ∧
      others'.map TypeSpec.unplaced = others.map TypeSpec.unplaced := by
  have hat := hrecord.recordAt
  obtain ⟨gap', parting, added, tail', final', hother, hgap, hparting, hparted, hreads, hlexemes, -⟩ :=
    hrecord.spliced hname hnewline hparse
  obtain ⟨indent, hindent, hrest⟩ := hrecord.lexemes_spliceRest
  rw [hline, hrest] at hlexemes
  have hroles : ∀ m ∈ line ++ asTrivia indent, m.role.IsBody :=
    List.forall_mem_append.mpr ⟨hlineRoles, fun m hm => .inl (role_of_mem_asTrivia m hm)⟩
  have hclose : advance (.type (.fields true) :: bottom) close.kind = some (close.role, bottom) := by
    rw [hrecord.close_kind, hrecord.close_role]
    obtain rfl | rfl := hat.specBottom <;> rfl
  -- The run over the line, the indentation and the brace is known, and the machine has no other.
  have hknown : Reads (.type (.fields true) :: bottom) ((line ++ asTrivia indent) ++ [close]) bottom := by
    have htrivial := (reads_trivial hindent).over (.inl rfl)
      (fun m hm => .inl (role_of_mem_asTrivia m hm)) hat.specBottom
    exact (hlineReads.append htrivial).append (.step hclose (.refl _))
  have hloose : ¬ isLoose close.lexeme.kind := by
    have hkind : close.lexeme.kind = .mark .closeBrace := hrecord.close_kind
    rw [hkind]
    nofun
  have hsplit : added.map Marked.lexeme ++ tail'.map Marked.lexeme =
      (line ++ asTrivia indent).map Marked.lexeme ++ close.lexeme :: (trivia ++ after ++ tail).map Marked.lexeme := by
    simpa using hlexemes
  obtain ⟨back, hadded, hback⟩ :=
    @split_before_tail _ (fun lexeme => isLoose lexeme.kind) _ _ _ _ _ hsplit hother.isLoose_tail hloose
  obtain ⟨more, rfl, hmore, hmoreReads⟩ := hknown.continue_from hreads
    (show added.map Marked.lexeme = (line ++ asTrivia indent ++ [close]).map Marked.lexeme ++ back by simp [hadded])
  rw [← hmore] at hback
  obtain ⟨trivia', after', rfl, htrivia', hnil, hhead, hothers⟩ :=
    hrecord.exists_after hmoreReads hother.isLoose_tail hback.symm
  have hbody : ∀ m ∈ body ++ (parting ++ (line ++ asTrivia indent)), m.role.IsBody := by
    refine List.forall_mem_append.mpr ⟨hrecord.roles, List.forall_mem_append.mpr ⟨?_, hroles⟩⟩
    intro m hm
    exact (hparting m hm).imp_right .inr
  have hsource : sourceOf gap' = sourceOf gap := by
    rw [← source_map_lexeme, hgap, source_map_lexeme]
  obtain ⟨before', others', record', hspecs, hbefore, hothers', hrecordFields, -⟩ :=
    hat.specs (sourceOf (gap' ++ head :: (front ++ ((body ++ (parting ++ (line ++ asTrivia indent))) ++
        close :: (trivia' ++ after')))))
      (fun m hm => (hother.gap_loose m hm).1) hsource hbody hrecord.close_role htrivia' hnil hhead
  refine ⟨before', record', others', ?_, hbefore, ?_, hothers'.trans hothers⟩
  · rw [← hspecs, hother.typeSpecs_eq hrecord.typeWord]
    simp
  · rw [hrecordFields,
      Structure.fieldsIn_after (line ++ asTrivia indent) hrecord.reads hrecord.roles hparting hparted, ← hrecord.fields,
      Structure.place_append, Structure.fieldsIn_append_trivia (Structure.forall_place role_of_mem_asTrivia)]

theorem summaries_of_readFields {field : NewField} {newline : Text} {new : List Field}
    (hrecord : declaration.HasRecord before spec others record gap head front body white close trivia after tail
      inside bottom final)
    (hname : isIdentifier field.name) (hnew : readFields (field.line newline) = some new)
    (hnewline : IsLineEnding newline)
    (hparse : Declaration.parse (spliceBefore declaration.text record.close record.indent newline
      fun indent => field.render indent newline) = .ok edited) :
    edited.typeSpecs.map TypeSpec.summary =
      before.map TypeSpec.summary ++ (spec.name, some (record.fields ++ new)) :: others.map TypeSpec.summary := by
  have hsummary {left right : List TypeSpec} (hunplaced : left.map TypeSpec.unplaced = right.map TypeSpec.unplaced) :
      left.map TypeSpec.summary = right.map TypeSpec.summary := by
    have hmap := congrArg (List.map TypeSpec.summary) hunplaced
    simpa only [List.map_map, Function.comp_def, TypeSpec.summary_unplaced] using hmap
  obtain ⟨line, hline, hreads, hroles, rfl, hcut⟩ := readFields_eq_some hnew
  obtain ⟨before', record', others', htypes, hbefore, hfields, hothers⟩ :=
    hrecord.typeSpecs_of_line hname hnewline hparse (by rw [hcut, hline])
      (hreads.over (.inl rfl) hroles hrecord.recordAt.specBottom) hroles
  rw [htypes, List.map_append, List.map_cons, hsummary hbefore, hsummary hothers, ← hfields]
  rfl

end Declaration.HasRecord

end GoGraft
