import GoGraft.Proofs.EditSteps
import GoGraft.Proofs.FieldEdits
import GoGraft.Proofs.Idempotence
import GoGraft.Proofs.TypeReading

/-!
# Struct types with a further field

The text of a declaration is taken apart at the closing brace of a struct type. With a field written there, all before
it is read as it was, and the machine comes to the name of the field where a field can begin.
-/

namespace GoGraft

open Grammar Lexeme

namespace Grammar

variable {kind : LexemeKind} {role : Role} {stack next : List Frame}

/-- A run between the braces of a struct type is the same on what the type specification stands on. -/
theorem Reads.over {marked : List Marked} {bottom : List Frame} (hreads : Reads stack marked next)
    (hbody : InBody stack) (hroles : ∀ m ∈ marked, m.role.IsBody) (hbottom : SpecBottom bottom) :
    Reads (stack ++ bottom) marked (next ++ bottom) := by
  obtain rfl | rfl := hbottom
  · simpa using hreads
  · induction hreads with
    | refl => exact .refl _
    | step hadvance _ ih =>
        obtain ⟨hrole, hroles⟩ := List.forall_mem_cons.mp hroles
        refine .step (advance_over [] isFloor_specFloor hadvance hbody.not_leaves) (ih ?_ hroles)
        obtain ⟨-, rfl⟩ | ⟨-, hmiddle⟩ | ⟨-, hmiddle⟩ | ⟨-, hclose, -⟩ := hbody.step hadvance
        · exact hbody
        · exact .inr hmiddle
        · exact .inl hmiddle
        · rw [hclose] at hrole
          exact absurd hrole Role.not_isBody_recordClose

theorem ReadsBody.over {body : List Marked} {close : Marked} {last bottom : List Frame}
    (hbody : ReadsBody [.type (.fields true)] body close last) (hbottom : SpecBottom bottom) :
    Reads (.type (.fields true) :: bottom) (body ++ [close]) bottom := by
  refine (hbody.reads.over (.inl rfl) hbody.roles hbottom).append (.step ?_ (.refl _))
  rw [hbody.kind, hbody.role]
  obtain rfl | rfl := hbottom
  · simpa using hbody.closes
  · exact advance_over [] isFloor_specFloor hbody.closes hbody.inBody.not_leaves

end Grammar

/-- The tag of a field, as it is written after the type. -/
def NewField.tagText (field : NewField) : Text :=
  match field.tag with
  | none | some [] => []
  | some tag => ' ' :: renderTag tag

/-- The line of a field, after its indentation. -/
def NewField.line (field : NewField) (newline : Text) : Text :=
  field.name ++ ' ' :: (field.type.render ++ (field.tagText ++ newline))

theorem NewField.render_eq (field : NewField) (indent newline : Text) :
    field.render indent newline =
      renderDoc field.doc indent newline ++ (indent ++ field.line newline) := by
  simp only [NewField.render, NewField.line, List.append_assoc, List.cons_append]
  rfl

theorem Scan.lexemes_field {field : NewField} {indent newline : Text} (rest : Text) (hname : isIdentifier field.name)
    (hindent : indent.all Text.isIndent) (hnewline : IsLineEnding newline) :
    ∃ front, (∀ lexeme ∈ front, isTrivial lexeme.kind) ∧
      lexemes (field.render indent newline ++ rest) = front ++ lexemes (field.line newline ++ rest) := by
  obtain ⟨doc, hdoc, hdocTrivial⟩ :=
    lexemes_renderDoc field.doc (indent ++ (field.line newline ++ rest)) hindent hnewline
  have hspace := isSpace_of_isIndent hindent
  have hink : ∀ c ∈ (field.line newline ++ rest).head?, ¬ Text.isSpace c := by
    rw [NewField.line, List.append_assoc]
    exact not_isSpace_identifier hname
  refine ⟨doc ++ lexemes indent, ?_, ?_⟩
  · refine List.forall_mem_append.mpr ⟨hdocTrivial, ?_⟩
    intro lexeme hlexeme
    exact isTrivial_of_isWhite (isWhite_of_mem_lexemes hspace lexeme hlexeme)
  · rw [NewField.render_eq, List.append_assoc, List.append_assoc, hdoc, lexemes_white hspace hink, List.append_assoc]

theorem Scan.lexemes_fieldLine {field : NewField} {newline rest : Text} (hname : isIdentifier field.name)
    (hstray : ∀ lexeme ∈ lexemes (field.line newline ++ rest), lexeme.kind ≠ .stray) :
    lexemes (field.line newline ++ rest) = ⟨ofWord field.name, field.name⟩ ::
      lexemes (' ' :: (field.type.render ++ (field.tagText ++ (newline ++ rest)))) := by
  have hsplit : field.line newline ++ rest =
      field.name ++ ' ' :: (field.type.render ++ (field.tagText ++ (newline ++ rest))) := by
    simp [NewField.line]
  rw [hsplit] at hstray ⊢
  apply lexemes_identifier hname _ hstray
  intro d hd
  obtain rfl := Option.some.inj hd
  decide

theorem Scan.exists_first {text : Text} (hne : text ≠ []) :
    ∃ first others, lexemes text = first :: others ∧ first.IsCut ∧ first.text.head? = text.head? := by
  have hsource := source_lexemes text
  have hcuts := cuts_lexemes text
  cases hlexemes : lexemes text with
  | nil =>
      rw [hlexemes] at hsource
      exact absurd hsource.symm hne
  | cons first others =>
      rw [hlexemes] at hsource hcuts
      have hcut := hcuts.isCut first (by simp)
      refine ⟨first, others, rfl, hcut, ?_⟩
      rw [← hsource, Lexeme.source_cons, Text.head?_append _ hcut.text_ne_nil]

theorem Scan.lexemes_after_name {text : Text} {c : Char} (hhead : text.head? = some c) (hspace : ¬ Text.isSpace c)
    (hdot : c ≠ '.') (hslash : c ≠ '/') :
    ∃ first others, lexemes (' ' :: text) = ⟨.blank, [' ']⟩ :: first :: others ∧ first.IsCut ∧
      first.kind ≠ .mark .dot ∧ first.kind ≠ .blank ∧ first.kind ≠ .comment := by
  have hne : text ≠ [] := by
    rintro rfl
    cases hhead
  obtain ⟨first, others, hlexemes, hcut, hfirst⟩ := exists_first hne
  rw [hhead] at hfirst
  have hblank : lexemes ([' '] ++ text) = ⟨.blank, [' ']⟩ :: lexemes text := by
    apply lexemes_white (List.forall_mem_singleton.mpr (by decide))
    intro d hd
    obtain rfl := Option.some.inj (hhead.symm.trans hd)
    exact hspace
  refine ⟨first, others, hblank.trans (by rw [hlexemes]), hcut, ?_, ?_, ?_⟩
  · intro hkind
    have hdots : ∀ mark ∈ marks, mark.2 = .dot → mark.1.head? = some '.' := by decide
    exact hdot (Option.some.inj (hfirst.symm.trans (hdots _ (hcut.mark hkind) rfl)))
  · intro hkind
    exact hspace (hcut.white (by rw [hkind]; rfl) c (List.mem_of_mem_head? hfirst))
  · intro hkind
    exact hslash (Option.some.inj (hfirst.symm.trans (hcut.head?_of_comment hkind)))

theorem Structure.fieldsIn_after {body parting : List Marked} {inside : List Frame} (more : List Marked)
    (hreads : Reads [.type (.fields true)] body inside) (hroles : ∀ m ∈ body, m.role.IsBody)
    (hparting : ∀ m ∈ parting, m.role = .trivia ∨ m.role = .recordSplit)
    (hparted : inside = [.type (.fields true)] ∨ ∃ m ∈ parting, m.role = .recordSplit) :
    fieldsIn (place 0 (body ++ (parting ++ more))) = fieldsIn (place 0 body) ++ fieldsIn (place 0 more) := by
  have hmap {marked : List Marked} (hmarked : ∀ m ∈ marked, m.role = .trivia ∨ m.role = .recordSplit) :
      ∀ placed ∈ marked.map (Placed.mk 0), placed.role = .trivia ∨ placed.role = .recordSplit := by
    simpa [Placed.role] using hmarked
  simp only [fieldsIn_place_eq, List.map_append]
  by_cases hsplit : ∃ m ∈ parting, m.role = .recordSplit
  · obtain ⟨m, hm, hrole⟩ := hsplit
    exact fieldsIn_parted (hmap hparting) ⟨⟨0, m⟩, List.mem_map_of_mem hm, hrole⟩
  · rw [hparted.resolve_right hsplit] at hreads
    obtain ⟨-, htrivia⟩ | ⟨earlier, split, later, rfl, hrole, htrivia⟩ := hreads.split_fields (.inl rfl) hroles
    · have hbody := hmap fun m hm => .inl (htrivia m hm)
      have hnone : fieldsIn (body.map (Placed.mk 0)) = [] := @fieldsIn_append_white [] _ hbody
      rw [hnone, fieldsIn_white_append hbody, fieldsIn_white_append (hmap hparting), List.nil_append]
    · have hwhite : ∀ m ∈ split :: later, m.role = .trivia ∨ m.role = .recordSplit :=
        List.forall_mem_cons.mpr ⟨.inr hrole, fun m hm => .inl (htrivia m hm)⟩
      have hboth : ∀ m ∈ split :: later ++ parting, m.role = .trivia ∨ m.role = .recordSplit :=
        List.forall_mem_append.mpr ⟨hwhite, hparting⟩
      have hparted := @fieldsIn_parted (earlier.map (Placed.mk 0)) (more.map (Placed.mk 0)) _ (hmap hboth)
        (by simp [Placed.role, hrole])
      rw [List.map_append, fieldsIn_append_white (hmap hwhite), ← hparted]
      simp

theorem Declaration.ReadAs.typeWord_of_types {declaration : Declaration} {gap rest tail : List Marked} {head : Marked}
    {frames final : List Frame} (hread : declaration.ReadAs gap head rest tail frames final)
    (htypes : declaration.typeSpecs ≠ []) : head.kind = .keyword .typeWord := by
  have hkind := hread.kind_eq
  cases hsection : (Section.mk gap (head :: rest)).kind with
  | typeDeclaration =>
      unfold Section.kind at hsection
      split at hsection
      case h_3 hhead => exact Option.some.inj hhead
      case h_6 => split at hsection <;> cases hsection
      all_goals cases hsection
  | _ =>
      rw [hsection] at hkind
      rw [Declaration.typeSpecs, hkind] at htypes
      exact absurd rfl htypes

namespace Declaration

/-- A struct type in the text of a declaration, taken apart where a further field is written: what precedes its body,
the body up to the white space at its end, this white space, the closing brace, and what follows it. -/
structure HasRecord (declaration : Declaration) (before : List TypeSpec) (spec : TypeSpec) (others : List TypeSpec)
    (record : Record) (gap : List Marked) (head : Marked) (front body white : List Marked) (close : Marked)
    (trivia after tail : List Marked) (inside bottom final : List Frame) : Prop where
  readAs : declaration.ReadAs gap head (front ++ body ++ white ++ close :: (trivia ++ after)) tail
    [.decl (.types true)] final
  typeWord : head.kind = .keyword .typeWord
  recordAt : Structure.RecordAt gap head front bottom (before.map TypeSpec.unplaced) spec.name spec.isAlias
  others_eq : others.map TypeSpec.unplaced = Structure.specsIn (Structure.laterParts 0 after)
  reads : Reads [.type (.fields true)] body inside
  inBody : InBody inside
  ready : Ready inside
  roles : ∀ m ∈ body, m.role.IsBody
  core : ∀ last ∈ (front ++ body).getLast?, ¬ Scan.isWhite last.kind
  white_kind : ∀ m ∈ white, Scan.isWhite m.kind
  close_role : close.role = .recordClose
  close_kind : close.kind = .mark .closeBrace
  trivia_role : ∀ m ∈ trivia, m.role = .trivia
  after_nil : bottom = [] → after = []
  after_head : ∀ m ∈ after.head?, m.role = .groupSplit ∨ m.role = .groupClose
  after_reads : Reads bottom (trivia ++ after) final
  fields : record.fields = Structure.fieldsIn (Structure.place 0 body)
  close_eq : record.close = (sourceOf (gap ++ head :: (front ++ body ++ white))).length
  indent : ∀ given ∈ record.indent, given.all Text.isIndent

variable {declaration : Declaration} {before others : List TypeSpec} {spec : TypeSpec} {record : Record}

theorem IsRead.exists_hasRecord (hread : declaration.IsRead)
    (hspecs : declaration.typeSpecs = before ++ spec :: others) (hrecord : spec.body = .record record) :
    ∃ gap head front body white close trivia after tail inside bottom final,
      declaration.HasRecord before spec others record gap head front body white close trivia after tail
        inside bottom final := by
  obtain ⟨gap, head, rest, tail, frames, final, hread⟩ := hread
  have hword := hread.typeWord_of_types (by simp [hspecs])
  obtain ⟨rfl, hinner⟩ := hread.frames_types hword
  rw [hread.typeSpecs_eq hword] at hspecs
  have hleaves := hread.ends
  have hgap : ∀ m ∈ gap, m.role = .trivia ∨ m.role = .ending := fun m hm => (hread.gap_loose m hm).1
  obtain ⟨front, body, close, trivia, after, bottom, last, rfl, hat, hbody, htrivia, hnil, hhead⟩ :=
    Structure.exists_recordAt hgap hinner hread.rest_reads hleaves hspecs (by rw [TypeSpec.record?, hrecord])
  obtain ⟨before', others', record', hspecs', hbefore, hothers, hfields, hclose, hindent⟩ :=
    hat.specs _ hgap rfl hbody.roles hbody.role htrivia hnil hhead
  obtain ⟨rfl, htail⟩ := List.append_inj (hspecs'.symm.trans hspecs) (by simpa using congrArg List.length hbefore)
  obtain ⟨hspec, rfl⟩ := List.cons.inj htail
  obtain rfl : record' = record := TypeBody.record.inj ((congrArg TypeSpec.body hspec).trans hrecord)
  have hclosed : Reads [.decl (.types true)] (front ++ (body ++ [close])) bottom :=
    hat.reads.append (hbody.over hat.specBottom)
  have hafter : Reads bottom (trivia ++ after) final := by
    have hreads : Reads [.decl (.types true)] ((front ++ (body ++ [close])) ++ (trivia ++ after)) final := by
      simpa using hread.rest_reads
    obtain ⟨middle, hfirst, hsecond⟩ := hreads.of_append
    rwa [hclosed.unique hfirst] at hsecond
  -- The field is written behind the last lexeme of the body that is no white space.
  obtain ⟨core, white, rfl, hwhite, hcore⟩ := exists_core (fun m : Marked => Scan.isWhite m.kind) body
  obtain ⟨hcoreRoles, -⟩ := List.forall_mem_append.mp hbody.roles
  obtain ⟨inside, hinside, hwhiteReads⟩ := hbody.reads.of_append
  have hfieldsBody : InBody [.type (.fields true)] := .inl rfl
  have hinBody : InBody inside := hinside.inBody hfieldsBody hcoreRoles
  have hstanding : Standing inside :=
    hinside.standing (hfieldsBody.below.mono (by decide)) ⟨rfl, trivial⟩
  obtain ⟨hready, hwhiteRoles⟩ := hwhiteReads.white_before_close hinBody hstanding hwhite hbody.closes
  refine ⟨gap, head, front, core, white, close, trivia, after, tail, inside, bottom, final, ?_⟩
  refine ⟨by simpa using hread, hword, hat, hothers, hinside, hinBody, hready, hcoreRoles, ?_, hwhite, hbody.role,
    hbody.kind, htrivia, hnil, hhead, hafter, ?_, by simpa using hclose, hindent⟩
  · intro last hlast
    obtain ⟨opening, hopening, hbrace⟩ := hat.brace
    rw [List.getLast?_append, hopening] at hlast
    cases hend : core.getLast? with
    | none =>
        rw [hend] at hlast
        obtain rfl := Option.some.inj hlast
        rw [hbrace]
        decide
    | some other =>
        rw [hend] at hlast
        obtain rfl := Option.some.inj hlast
        exact hcore other hend
  · rw [hfields, Structure.place_append, Structure.fieldsIn_append_white (Structure.forall_place hwhiteRoles)]

namespace HasRecord

variable {gap front body white trivia after tail : List Marked} {head close : Marked}
  {inside bottom final : List Frame}

/-- With a field written before the closing brace, all before it is read as it was. -/
theorem spliced {edited : Declaration} {field : NewField} {newline : Text}
    (hrecord : declaration.HasRecord before spec others record gap head front body white close trivia after tail
      inside bottom final)
    (hname : isIdentifier field.name) (hnewline : IsLineEnding newline)
    (hparse : Declaration.parse (spliceBefore declaration.text record.close record.indent newline
      fun indent => field.render indent newline) = .ok edited) :
    ∃ gap' parting added tail' final',
      edited.ReadAs gap' head (front ++ (body ++ (parting ++ added))) tail' [.decl (.types true)] final' ∧
      gap'.map Marked.lexeme = gap.map Marked.lexeme ∧
      (∀ m ∈ parting, m.role = .trivia ∨ m.role = .recordSplit) ∧
      (inside = [.type (.fields true)] ∨ ∃ m ∈ parting, m.role = .recordSplit) ∧
      Reads (.type (.fields true) :: bottom) added final' ∧
      added.map Marked.lexeme ++ tail'.map Marked.lexeme =
        Scan.lexemes (field.line newline ++ spliceRest declaration.text record.close) ∧
      Scan.lexemes (field.line newline ++ spliceRest declaration.text record.close) =
        ⟨ofWord field.name, field.name⟩ :: Scan.lexemes (' ' :: (field.type.render ++ (field.tagText ++
          (newline ++ spliceRest declaration.text record.close)))) := by
  have hat := hrecord.recordAt
  have hreadAs : declaration.ReadAs gap head ((front ++ body) ++ white ++ close :: (trivia ++ after)) tail
      [.decl (.types true)] final := hrecord.readAs
  have hcloseInk : ¬ Scan.isWhite close.kind := by
    rw [hrecord.close_kind]
    nofun
  obtain ⟨separator, hspace, hlast, hcuts, htext⟩ := hreadAs.spliceBefore_eq hrecord.core hrecord.white_kind hcloseInk
    hrecord.close_eq hnewline record.indent fun indent => field.render indent newline
  obtain ⟨⟨gap', head', rest', tail', frames', final', hother⟩, hedited⟩ := Declaration.isRead_of_parse hparse
  rw [htext] at hedited
  -- The separator ends in a newline, so that the entry is cut by itself: its comment, and a line that begins with
  -- the name.
  have hline := Scan.lexemes_line hspace hlast
    (field.render (spliceIndent declaration.text record.close record.indent) newline ++
      spliceRest declaration.text record.close)
  have hne : separator ≠ [] := by
    rintro rfl
    cases hlast
  have hindent := @isIndent_spliceIndent declaration.text record.close record.indent hrecord.indent
  obtain ⟨doc, hdoc, hfield⟩ := @Scan.lexemes_field field _ _ (spliceRest declaration.text record.close) hname hindent
    hnewline
  have hnamed := @Scan.lexemes_fieldLine field newline (spliceRest declaration.text record.close) hname (by
    intro lexeme hlexeme
    apply hother.lexemes_ne_stray
    rw [hedited, Scan.lexemes_append (Text.head?_append _ hne ▸ hcuts), hline, hfield]
    simp [hlexeme])
  rw [hfield, hnamed, ← List.append_assoc (Scan.lexemes separator)] at hline
  -- Up to the name the new declaration is read in one way: what was kept as before, then separator and comment.
  have hkept : Reads [.decl (.types true)] (front ++ body) (inside ++ bottom) :=
    hat.reads.append (hrecord.reads.over (.inl rfl) hrecord.roles hat.specBottom)
  have hsplit : front ++ body ++ white ++ close :: (trivia ++ after) =
      (front ++ body) ++ (white ++ close :: (trivia ++ after)) := by simp
  obtain ⟨hgap, rfl, rfl, written, more, rfl, hwritten, hlexemes, hback⟩ := (hsplit ▸ hreadAs).reread hkept hother
    (Text.head?_append _ hne ▸ hcuts) hedited hline (by simp [isLoose_ofWord])
  obtain ⟨split, hsplitLexemes, hsplitReads, hsplitRoles, hparted⟩ := hrecord.ready.reads_white
    (Scan.isWhite_of_mem_lexemes hspace) (Scan.exists_newline hspace (List.mem_of_getLast? hlast))
  have hpartingRoles : ∀ m ∈ split ++ asTrivia doc, m.role = .trivia ∨ m.role = .recordSplit :=
    List.forall_mem_append.mpr ⟨hsplitRoles, fun m hm => .inl (role_of_mem_asTrivia m hm)⟩
  have hparting : Reads (inside ++ bottom) (split ++ asTrivia doc) (.type (.fields true) :: bottom) := by
    refine (hsplitReads.append (reads_trivial hdoc)).over hrecord.inBody ?_ hat.specBottom
    intro m hm
    exact (hpartingRoles m hm).imp_right .inr
  have hmore : written.map Marked.lexeme = (split ++ asTrivia doc).map Marked.lexeme ++
      ⟨ofWord field.name, field.name⟩ :: more := by
    simp [hlexemes, hsplitLexemes]
  obtain ⟨added, rfl, hadded, hreads⟩ := hparting.continue_from hwritten hmore
  refine ⟨gap', split ++ asTrivia doc, added, tail', final', by simpa using hother, hgap, hpartingRoles,
    hparted.imp_right ?_, hreads, ?_, hnamed⟩
  · rintro ⟨m, hm, hrole⟩
    exact ⟨m, by simp [hm], hrole⟩
  · rw [hadded, hnamed, hback]
    rfl

/-- A field that was written is read as a field of its name. -/
theorem exists_field {edited : Declaration} {field : NewField} {newline : Text} {c : Char}
    (hrecord : declaration.HasRecord before spec others record gap head front body white close trivia after tail
      inside bottom final)
    (hname : isIdentifier field.name) (hnewline : IsLineEnding newline)
    (hparse : Declaration.parse (spliceBefore declaration.text record.close record.indent newline
      fun indent => field.render indent newline) = .ok edited)
    (htype : field.type.render.head? = some c) (hspace : ¬ Text.isSpace c) (hdot : c ≠ '.') (hslash : c ≠ '/') :
    ∃ before' others' record', edited.typeSpecs = before' ++ ⟨spec.name, spec.isAlias, .record record'⟩ :: others' ∧
      before'.map TypeSpec.unplaced = before.map TypeSpec.unplaced ∧ record'.hasField field.name := by
  have hat := hrecord.recordAt
  obtain ⟨gap', parting, added, tail', final', hother, hgap, hparting, hparted, hreads, hlexemes, hnamed⟩ :=
    hrecord.spliced hname hnewline hparse
  have hleaves := hother.ends
  obtain ⟨written, after', last, kind, rfl, hwritten, hends, hnil, hhead⟩ :=
    @Reads.split_spec _ _ _ [.type (.fields true)] _ hreads hat.specBottom hleaves
  obtain ⟨hinBody, -⟩ | ⟨body', close', rest', last', rfl, hbody, hrest⟩ := hwritten.split_close (.inl rfl)
  · exact absurd hends hinBody.not_leaves
  have htext : (field.type.render ++ (field.tagText ++ (newline ++ spliceRest declaration.text record.close))).head? =
      some c := by
    rw [Text.head?_append, htype]
    intro hnil
    rw [hnil] at htype
    cases htype
  obtain ⟨first, others', hfollows, hcut, hfirstDot, hfirstBlank, hfirstComment⟩ :=
    Scan.lexemes_after_name htext hspace hdot hslash
  rw [hnamed, hfollows] at hlexemes
  obtain ⟨found, hfound, hfoundName⟩ := Structure.exists_field_of_named hname hbody
    (show body'.map Marked.lexeme ++ close'.lexeme :: ((rest' ++ after' ++ tail').map Marked.lexeme) = _ by
      simpa using hlexemes) hcut hfirstDot hfirstBlank hfirstComment
  have hsource : sourceOf gap' = sourceOf gap := by
    rw [← source_map_lexeme, hgap, source_map_lexeme]
  have hroles : ∀ m ∈ body ++ (parting ++ body'), m.role.IsBody := by
    refine List.forall_mem_append.mpr ⟨hrecord.roles, List.forall_mem_append.mpr ⟨?_, hbody.roles⟩⟩
    intro m hm
    exact (hparting m hm).imp_right .inr
  obtain ⟨before', others', record', hspecs, hbefore, -, hfields, -⟩ :=
    hat.specs (sourceOf (gap' ++ head :: (front ++ ((body ++ (parting ++ body')) ++ close' :: (rest' ++ after')))))
      (fun m hm => (hother.gap_loose m hm).1) hsource hroles hbody.role hrest.of_nil.2 hnil hhead
  refine ⟨before', others', record', ?_, hbefore, ?_⟩
  · rw [← hspecs, hother.typeSpecs_eq hrecord.typeWord]
    simp
  · rw [Structure.fieldsIn_after body' hrecord.reads hrecord.roles hparting hparted] at hfields
    refine List.any_eq_true.mpr ⟨found, ?_, decide_eq_true hfoundName⟩
    rw [hfields]
    exact List.mem_append_right _ hfound

end HasRecord

end Declaration

namespace SourceFile

variable {file edited : SourceFile}

theorem appendField_eq_ok {name : Text} {field : NewField} {location : TypeLocation}
    (hlocation : file.recordLocation? name = some location) (happend : file.appendField location field = .ok edited) :
    ∃ earlier old later before spec others record new, file.declarations = earlier ++ old :: later ∧
      old.typeSpecs = before ++ spec :: others ∧ spec.name = name ∧ spec.body = .record record ∧
      (∀ other ∈ earlier.flatMap Declaration.typeSpecs ++ before, other.name ≠ name) ∧
      Declaration.parse (spliceBefore old.text record.close record.indent file.lineEnding
        fun indent => field.render indent file.lineEnding) = .ok new ∧
      edited = { file with declarations := earlier ++ new :: later } := by
  obtain ⟨found, hfound, hlocation⟩ := Option.bind_eq_some_iff.mp hlocation
  obtain ⟨_, -, hlocation⟩ := Option.bind_eq_some_iff.mp hlocation
  obtain ⟨_, -, hlocation⟩ := Option.bind_eq_some_iff.mp hlocation
  obtain rfl := Option.some.inj hlocation
  obtain ⟨earlier, old, later, before, spec, others, hsplit, rfl, hspecs, hname, hbefore⟩ :=
    file.exists_of_typeLocation? hfound
  obtain ⟨_, _, _, _, _, _, record, new, hsplit', hlocation, hspecs', hbody, hparse, rfl⟩ := appendField_cases happend
  obtain ⟨hearlier, hspecsBefore⟩ := TypeLocation.mk.inj hlocation
  obtain ⟨rfl, hlater⟩ := List.append_inj (hsplit.symm.trans hsplit') hearlier
  obtain ⟨rfl, rfl⟩ := List.cons.inj hlater
  obtain ⟨rfl, hothers⟩ := List.append_inj (hspecs.symm.trans hspecs') hspecsBefore
  obtain ⟨rfl, rfl⟩ := List.cons.inj hothers
  exact ⟨earlier, old, later, before, spec, others, record, new, hsplit, hspecs, hname, hbody, hbefore, hparse, rfl⟩

theorem record?_of_split {name : Text} {before others : List TypeSpec} {spec : TypeSpec} {record : Record}
    (hspecs : file.allTypeSpecs = before ++ spec :: others) (hbefore : ∀ other ∈ before, other.name ≠ name)
    (hname : spec.name = name) (hbody : spec.body = .record record) : file.record? name = some record := by
  have hfind : (before ++ spec :: others).find? (·.name = name) = some spec := by
    rw [List.find?_append, List.find?_eq_none.mpr (by simpa using hbefore), Option.none_or, List.find?_cons_of_pos]
    simpa using hname
  rw [record?_eq, hspecs, hfind, Option.bind_some, TypeSpec.record?, hbody]

/-- A field that was added is found. -/
theorem hasField_of_addField {name : Text} {field : NewField} {outcome : Outcome} {c : Char} (hread : file.IsRead)
    (hname : isIdentifier field.name) (htype : field.type.render.head? = some c) (hspace : ¬ Text.isSpace c)
    (hdot : c ≠ '.') (hslash : c ≠ '/') (hadd : file.addField name field = ⟨edited, .ok outcome⟩) :
    ∃ record, edited.record? name = some record ∧ record.hasField field.name := by
  obtain ⟨hpresent, rfl, -⟩ | ⟨-, -, next, ⟨hlocation, happend⟩, hensure⟩ :=
    @Change.apply_eq_ok (.addField name field) _ _ _ hadd
  · exact (Option.any_eq_true ..).mp hpresent
  obtain ⟨earlier, old, later, before, spec, others, record, new, hsplit, hspecs, hspecName, hbody, hbefore, hparse,
    rfl⟩ := appendField_eq_ok hlocation happend
  obtain ⟨gap, head, front, body, white, close, trivia, after, tail, inside, bottom, final, hrecord⟩ :=
    (hread old (by simp [hsplit])).exists_hasRecord hspecs hbody
  obtain ⟨before', others', record', hspecs', hbefore', hfield⟩ :=
    hrecord.exists_field hname file.isLineEnding_lineEnding hparse htype hspace hdot hslash
  have hnext := isRead_split hread hsplit (Declaration.isRead_of_parse hparse).1
  have hall : edited.allTypeSpecs = (earlier.flatMap Declaration.typeSpecs ++ before') ++
      ⟨spec.name, spec.isAlias, .record record'⟩ :: (others' ++ later.flatMap Declaration.typeSpecs) := by
    rw [(ensureImports_types hnext hensure).2, allTypeSpecs]
    simp [hspecs']
  obtain ⟨hearlier, hbefore⟩ := List.forall_mem_append.mp hbefore
  refine ⟨record', record?_of_split hall (List.forall_mem_append.mpr ⟨hearlier, ?_⟩) hspecName rfl, hfield⟩
  intro other hother
  have hunplaced : other.unplaced ∈ before.map TypeSpec.unplaced := hbefore' ▸ List.mem_map_of_mem hother
  obtain ⟨same, hsame, hunplaced⟩ := List.mem_map.mp hunplaced
  rw [← (TypeSpec.mk.inj hunplaced).1]
  exact hbefore same hsame

end SourceFile

theorem TypeExpr.head?_render {text : Text} {type : TypeExpr} (hread : TypeExpr.read text = .ok type) :
    ∃ c, type.render.head? = some c ∧ (Text.trim text).head? = some c := by
  cases TypeExpr.read_eq_ok.mp hread with
  | pointer htext => exact ⟨'*', rfl, congrArg List.head? htext⟩
  | slice htext => exact ⟨'[', rfl, congrArg List.head? htext⟩
  | mapping htext => exact ⟨'m', rfl, congrArg List.head? htext⟩
  | unclosed htext => exact ⟨'m', congrArg List.head? htext, congrArg List.head? htext⟩
  | name hne =>
      rw [TypeExpr.render_readName]
      exact ⟨_, List.head?_eq_some_head hne, List.head?_eq_some_head hne⟩

theorem read_of_readType {kind : RequestKind} {text : Text} {type : TypeExpr} (htype : readType kind text = .ok type) :
    TypeExpr.read text = .ok type := by
  obtain ⟨-, -, htype⟩ := bind_eq_ok.mp htype
  obtain ⟨read, hread, htype⟩ := bind_eq_ok.mp htype
  obtain ⟨-, -, htype⟩ := bind_eq_ok.mp htype
  obtain rfl := pure_eq_ok.mp htype
  exact mapError_eq_ok.mp hread

theorem FieldRequest.toField_eq_ok {request : FieldRequest} {kind : RequestKind} {parameter : String} {field : NewField}
    (hfield : request.toField kind parameter = .ok field) :
    isIdentifier field.name ∧ field.name = request.name ∧ TypeExpr.read request.type = .ok field.type := by
  obtain ⟨-, -, hfield⟩ := bind_eq_ok.mp hfield
  obtain ⟨_, hidentifier, hfield⟩ := bind_eq_ok.mp hfield
  obtain ⟨type, htype, hfield⟩ := bind_eq_ok.mp hfield
  have hread := read_of_readType htype
  have hname := checkIdentifier_eq_ok.mp hidentifier
  split at hfield
  · obtain rfl := pure_eq_ok.mp hfield
    exact ⟨hname, rfl, hread⟩
  · obtain rfl := pure_eq_ok.mp hfield
    exact ⟨hname, rfl, hread⟩
  · obtain ⟨-, -, hfield⟩ := bind_eq_ok.mp hfield
    obtain rfl := pure_eq_ok.mp hfield
    exact ⟨hname, rfl, hread⟩

theorem Request.toChange_addField {record : Text} {request : FieldRequest} {change : Change}
    (hchange : toChange (.addField record request) = .ok change) :
    ∃ field, change = .addField record field ∧ isIdentifier field.name ∧ field.name = request.name ∧
      TypeExpr.read request.type = .ok field.type := by
  obtain ⟨-, -, hchange⟩ := bind_eq_ok.mp hchange
  obtain ⟨-, -, hchange⟩ := bind_eq_ok.mp hchange
  obtain ⟨field, hfield, hchange⟩ := bind_eq_ok.mp hchange
  obtain rfl := pure_eq_ok.mp hchange
  exact ⟨field, rfl, FieldRequest.toField_eq_ok hfield⟩

end GoGraft
