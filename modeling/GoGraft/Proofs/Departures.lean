import GoGraft.Proofs.EditedFiles
import GoGraft.Proofs.FieldInsertion
import GoGraft.Proofs.ImportDrift

/-!
# Edited files never become what they were

In a file that passes the checks the import declarations come first. Fields and types only make longer what follows
them, and imports change the row of import declarations in a way that cannot be undone. So once an edit has been made,
no further edits lead back to the text from which the first one started.
-/

namespace GoGraft

open Grammar Relation

theorem Declaration.IsRead.field_longer {old new : Declaration} {before others : List TypeSpec} {spec : TypeSpec}
    {record : Record} {field : NewField} {newline : Text} (hread : old.IsRead)
    (hspecs : old.typeSpecs = before ++ spec :: others) (hbody : spec.body = .record record)
    (hnewline : IsLineEnding newline)
    (hparse : Declaration.parse (spliceBefore old.text record.close record.indent newline
      fun indent => field.render indent newline) = .ok new) :
    ¬ new.isImport ∧ old.text.length < new.text.length := by
  obtain ⟨gap, head, front, body, white, close, trivia, after, tail, inside, bottom, final, hrecord⟩ :=
    hread.exists_hasRecord hspecs hbody
  have hink : ¬ Scan.isWhite close.kind := by
    rw [hrecord.close_kind]
    decide
  obtain ⟨separator, -, hlast, hcuts, hsplice⟩ := hrecord.readAs.spliceBefore_eq hrecord.core hrecord.white_kind hink
    hrecord.close_eq hnewline record.indent fun indent => field.render indent newline
  obtain ⟨⟨gap', head', rest', tail', frames', final', hother⟩, htext⟩ := Declaration.isRead_of_parse hparse
  constructor
  · have hne : separator ≠ [] := List.ne_nil_of_mem (List.mem_of_getLast? hlast)
    have hlexemes : Scan.lexemes new.text = gap.map Marked.lexeme ++ head.lexeme ::
        ((front ++ body).map Marked.lexeme ++ Scan.lexemes (separator ++
          (field.render (spliceIndent old.text record.close record.indent) newline ++
            spliceRest old.text record.close))) := by
      rw [htext, hsplice, Scan.lexemes_append (Text.head?_append _ hne ▸ hcuts)]
      simp
    obtain ⟨-, hhead, -⟩ := hother.split_lexemes hlexemes hrecord.readAs.isLoose_gap hrecord.readAs.not_isLoose_head
    intro himport
    have hword := hother.importWord_of_isImport himport
    rw [Marked.kind, hhead] at hword
    exact absurd (hword.symm.trans hrecord.typeWord) (by decide)
  · have hlength := length_spliceBefore old.text record.close record.indent newline
      fun indent => field.render indent newline
    have hentry : 0 < (field.render (spliceIndent old.text record.close record.indent) newline).length := by
      apply List.length_pos_iff.mpr
      simp [NewField.render]
    rw [htext]
    omega

namespace SourceFile

variable {file edited start : SourceFile} {changes : List Change} {lead body : List Declaration}

/-- No import declaration follows another declaration. -/
def ImportsLead (file : SourceFile) : Prop :=
  (file.declarations.map Declaration.isImport).Pairwise fun earlier later : Bool => later → earlier

theorem mem_faults_importAfterDeclaration {declaration : Declaration} {late : Bool} :
    .importAfterDeclaration ∈ declaration.faults late ↔ late ∧ declaration.isImport := by
  obtain ⟨text, kind⟩ := declaration
  cases kind with
  | imports specs layout =>
      simp [Declaration.faults, Declaration.isImport, ImportSpec.faults, faultIf]
  | types specs =>
      have hspec (spec : TypeSpec) : .importAfterDeclaration ∉ spec.faults := by
        unfold TypeSpec.faults
        split <;> simp [Field.faults, faultIf]
      simpa [Declaration.faults, Declaration.isImport] using fun spec _ => hspec spec
  | function => simp [Declaration.faults, Declaration.isImport, faultIf]
  | values => simp [Declaration.faults, Declaration.isImport, faultIf]

theorem checkFrom_importAfterDeclaration {declarations : List Declaration} {index : Nat} {late : Bool} :
    (∀ violation ∈ checkFrom index late declarations, violation.fault ≠ .importAfterDeclaration) ↔
      (late → ∀ declaration ∈ declarations, ¬ declaration.isImport) ∧
        (declarations.map Declaration.isImport).Pairwise fun earlier later : Bool => later → earlier := by
  induction declarations generalizing index late with
  | nil => simp [checkFrom]
  | cons declaration others ih =>
      have hfirst : (∀ violation ∈ (declaration.faults late).map (Violation.mk index),
          violation.fault ≠ .importAfterDeclaration) ↔ (late → ¬ declaration.isImport) := by
        rw [List.forall_mem_map, ← not_and, ← mem_faults_importAfterDeclaration]
        exact ⟨fun hall hmem => hall _ hmem rfl, fun hnot fault hmem heq => hnot (heq ▸ hmem)⟩
      rw [checkFrom, List.forall_mem_append, hfirst, ih]
      cases late <;> cases hkind : declaration.isImport <;> simp [hkind]

/-- The import declarations of a file come first exactly if the check finds none that comes late. -/
theorem importsLead_iff :
    file.ImportsLead ↔ ∀ violation ∈ file.check, violation.fault ≠ .importAfterDeclaration := by
  rw [check, checkFrom_importAfterDeclaration]
  simp [ImportsLead]

theorem importsLead_of_violations {settings : Settings} (hviolations : file.violations settings = []) :
    file.ImportsLead := by
  rw [importsLead_iff, (List.append_eq_nil_iff.mp hviolations).1]
  nofun

/-- The import declarations of a file, and the declarations after them. -/
structure Split (file : SourceFile) (lead body : List Declaration) : Prop where
  declarations_eq : file.declarations = lead ++ body
  imports : ∀ declaration ∈ lead, declaration.isImport
  others : ∀ declaration ∈ body, ¬ declaration.isImport

theorem ImportsLead.exists_split (hleads : file.ImportsLead) : ∃ lead body, file.Split lead body := by
  obtain ⟨header, package, declarations, trailer⟩ := file
  unfold ImportsLead at hleads
  dsimp only at hleads
  induction declarations with
  | nil => exact ⟨[], [], rfl, by simp, by simp⟩
  | cons first others ih =>
      obtain ⟨hfirst, hothers⟩ := List.pairwise_cons.mp hleads
      by_cases himport : first.isImport
      · obtain ⟨lead, body, hsplit⟩ := ih hothers
        exact ⟨first :: lead, body, congrArg (List.cons first) hsplit.declarations_eq,
          List.forall_mem_cons.mpr ⟨himport, hsplit.imports⟩, hsplit.others⟩
      · refine ⟨[], first :: others, rfl, by simp, List.forall_mem_cons.mpr ⟨himport, ?_⟩⟩
        intro other hother hlate
        exact himport (hfirst _ (List.mem_map_of_mem hother) hlate)

theorem Split.leadingImports_eq (hsplit : file.Split lead body) : file.leadingImports = lead.length := by
  rw [leadingImports, hsplit.declarations_eq, List.takeWhile_append_of_pos hsplit.imports]
  cases body with
  | nil => simp
  | cons first rest => simp [hsplit.others first (by simp)]

def extent (declarations : List Declaration) : Nat :=
  (declarations.flatMap Declaration.text).length

@[simp]
theorem extent_append (left right : List Declaration) : extent (left ++ right) = extent left + extent right := by
  simp [extent]

@[simp]
theorem extent_cons (declaration : Declaration) (others : List Declaration) :
    extent (declaration :: others) = declaration.text.length + extent others := by
  simp [extent]

/-! ## One edit -/

theorem renderImport_ne_nil (path : Text) (localName : Option Text) : renderImport path localName ≠ [] := by
  cases localName <;> simp [renderImport]

theorem length_extendImport {text newline : Text} {specs : List ImportSpec} {layout : ImportLayout} (path : Text)
    (localName : Option Text) (hgrouped : (Declaration.mk text (.imports specs layout)).isGrouped) :
    text.length < (extendImport text layout newline (renderImport path localName)).length := by
  have hspec := List.length_pos_iff.mpr (renderImport_ne_nil path localName)
  cases layout with
  | single => cases hgrouped
  | grouped close indent =>
      have hlength := length_spliceBefore text close indent newline
        fun indent => indent ++ renderImport path localName ++ newline
      simp only [List.length_append] at hlength
      unfold extendImport
      dsimp only
      omega

/-- What one edit does to the declarations. -/
inductive Altered (file : SourceFile) : SourceFile → Prop where
  | field {earlier later : List Declaration} {old new : Declaration}
      (hfile : file.declarations = earlier ++ old :: later) (hold : ¬ old.isImport) (hnew : ¬ new.isImport)
      (hlonger : old.text.length < new.text.length) :
      Altered file { file with declarations := earlier ++ new :: later }
  | type {index : Nat} {new : Declaration} (hindex : file.leadingImports ≤ index) (hnew : ¬ new.isImport)
      (htext : new.text ≠ []) : Altered file (file.insert index new)
  | newImport {new : Declaration} (hnone : ∀ declaration ∈ file.declarations, ¬ declaration.isExtendable)
      (hnew : new.isImport) (htext : new.text ≠ []) : Altered file (file.insert file.leadingImports new)
  | oldImport {earlier later : List Declaration} {old new : Declaration}
      (hfile : file.declarations = earlier ++ old :: later)
      (hearlier : ∀ declaration ∈ earlier, ¬ declaration.isExtendable) (hold : old.isExtendable) (hnew : new.isImport)
      (htext : new.text ≠ []) (hgrouped : new.isGrouped)
      (hlonger : old.isGrouped → old.text.length < new.text.length) :
      Altered file { file with declarations := earlier ++ new :: later }

theorem altered_of_appendImport {path : Text} {localName : Option Text} (hread : file.IsRead)
    (happend : file.appendImport path localName = .ok edited) : Altered file edited := by
  have hnewline := file.isLineEnding_lineEnding
  obtain ⟨new, hnone, hparse, rfl⟩ | ⟨earlier, old, later, specs, layout, new, hfile, hearlier, hold, hkind, hparse,
    rfl⟩ := appendImport_cases happend
  · obtain ⟨hnew, -⟩ := Declaration.isRead_of_parse hparse
    exact .newImport hnone ((importText_new (renderImport path localName) hnewline).isImport hparse) hnew.text_ne_nil
  · obtain ⟨text, kind⟩ := old
    obtain rfl : kind = .imports specs layout := hkind
    have hmem : Declaration.mk text (.imports specs layout) ∈ file.declarations := by simp [hfile]
    obtain ⟨kept, htext, hopen, -⟩ := importText_extend (renderImport path localName) (hread _ hmem) hnewline
    obtain ⟨hnew, hnewText⟩ := Declaration.isRead_of_parse hparse
    refine .oldImport hfile hearlier hold (htext.isImport hparse) hnew.text_ne_nil (htext.isGrouped hparse hopen) ?_
    intro hgrouped
    rw [hnewText]
    exact length_extendImport path localName hgrouped

theorem altered_of_stepped (hread : file.IsRead) (hstepped : Stepped changes file edited) : Altered file edited := by
  have hnewline := file.isLineEnding_lineEnding
  cases hstepped with
  | field hchange hlocation happend =>
      obtain ⟨earlier, old, later, before, spec, others, record, new, hfile, -, hspecs, hbody, hparse, rfl⟩ :=
        appendField_cases happend
      have hold : ¬ old.isImport := @not_isImport_of_mem old spec (by simp [hspecs])
      obtain ⟨hnew, hlonger⟩ := (hread old (by simp [hfile])).field_longer hspecs hbody hnewline hparse
      exact .field hfile hold hnew hlonger
  | @type _ placement _ _ hchange hinsert =>
      obtain ⟨new, hparse, rfl⟩ := insertType_cases hinsert
      have hindex : file.leadingImports ≤ file.resolve placement := Nat.le_max_right _ _
      exact .type hindex (not_isImport_of_newType hnewline hparse) (Declaration.isRead_of_parse hparse).1.text_ne_nil
  | imports hchange himport happend => exact altered_of_appendImport hread happend

theorem Altered.importsLead (haltered : Altered file edited) (hedited : edited.ImportsLead) : file.ImportsLead := by
  have hinsert {index : Nat} {new : Declaration} (hinserted : (file.insert index new).ImportsLead) :
      file.ImportsLead := by
    have hsublist : (file.declarations.take index ++ file.declarations.drop index).Sublist
        (file.declarations.take index ++ new :: file.declarations.drop index) :=
      List.Sublist.append_left (List.sublist_cons_self _ _) _
    rw [List.take_append_drop] at hsublist
    exact hinserted.sublist (hsublist.map _)
  have hreplace {earlier later : List Declaration} {old new : Declaration}
      (hfile : file.declarations = earlier ++ old :: later) (hsame : new.isImport = old.isImport)
      (hreplaced : ImportsLead { file with declarations := earlier ++ new :: later }) : file.ImportsLead := by
    unfold ImportsLead at hreplaced ⊢
    rw [hfile]
    simpa [hsame] using hreplaced
  cases haltered with
  | field hfile hold hnew => exact hreplace hfile (by simp [hold, hnew]) hedited
  | type => exact hinsert hedited
  | newImport => exact hinsert hedited
  | oldImport hfile hearlier hold hnew =>
      exact hreplace hfile (hnew.trans (Bool.and_eq_true_iff.mp hold).1.symm) hedited

/-- One edit makes longer what follows the import declarations, or adds an import to them. -/
theorem Split.altered (hsplit : file.Split lead body) (haltered : Altered file edited) :
    (∃ body', edited.Split lead body' ∧ extent body < extent body') ∨
      ∃ lead', edited.Split lead' body ∧ Extended lead lead' := by
  have hleading := hsplit.leadingImports_eq
  obtain ⟨hdeclarations, himports, hothers⟩ := hsplit
  cases haltered with
  | @field earlier later old new hfile hold hnew hlonger =>
      obtain ⟨between, rfl, rfl⟩ := split_after_head (hdeclarations.symm.trans hfile) himports hold
      obtain ⟨hbetween, hlater⟩ := List.forall_mem_append.mp hothers
      refine .inl ⟨between ++ new :: later, ⟨by simp, himports, ?_⟩, ?_⟩
      · exact List.forall_mem_append.mpr
          ⟨hbetween, List.forall_mem_cons.mpr ⟨hnew, (List.forall_mem_cons.mp hlater).2⟩⟩
      · simp only [extent_append, extent_cons]
        omega
  | @type index new hindex hnew htext =>
      rw [hleading] at hindex
      obtain ⟨i, rfl⟩ := Nat.exists_eq_add_of_le hindex
      refine .inl ⟨body.take i ++ new :: body.drop i, ⟨?_, himports, ?_⟩, ?_⟩
      · simp [insert, hdeclarations, List.take_length_add_append, List.drop_length_add_append]
      · exact List.forall_mem_append.mpr ⟨fun other hother => hothers other (List.mem_of_mem_take hother),
          List.forall_mem_cons.mpr ⟨hnew, fun other hother => hothers other (List.mem_of_mem_drop hother)⟩⟩
      · have hbody : extent body = extent (body.take i) + extent (body.drop i) := by
          rw [← extent_append, List.take_append_drop]
        have hlength := List.length_pos_iff.mpr htext
        rw [extent_append, extent_cons]
        omega
  | @newImport new hnone hnew htext =>
      refine .inr ⟨lead ++ [new], ⟨?_, ?_, hothers⟩, .added ?_ htext⟩
      · simp [insert, hleading, hdeclarations]
      · exact List.forall_mem_append.mpr ⟨himports, List.forall_mem_singleton.mpr hnew⟩
      · exact fun declaration hmem => hnone declaration (by simp [hdeclarations, hmem])
  | @oldImport earlier later old new hfile hearlier hold hnew htext hgrouped hlonger =>
      have hbefore := (Bool.and_eq_true_iff.mp hold).1
      obtain ⟨between, rfl, rfl⟩ := @split_before_tail _ (fun declaration => !declaration.isImport) _ _ _ _ _
        (hdeclarations.symm.trans hfile) (by simpa using hothers) (by simp [hbefore])
      obtain ⟨hfront, hbetween⟩ := List.forall_mem_append.mp himports
      refine .inr ⟨earlier ++ new :: between, ⟨by simp, ?_, hothers⟩, .grown hearlier hold htext hgrouped hlonger⟩
      exact List.forall_mem_append.mpr
        ⟨hfront, List.forall_mem_cons.mpr ⟨hnew, (List.forall_mem_cons.mp hbetween).2⟩⟩

/-! ## Any number of edits -/

/-- What edits have made of a file. The import declarations are not what they were and the rest has not become shorter,
or they are what they were and the rest is longer. -/
def Moved (start file : SourceFile) : Prop :=
  ∃ lead body lead' body', start.Split lead body ∧ file.Split lead' body' ∧
    ((Drift lead lead' ∧ extent body ≤ extent body') ∨ (lead' = lead ∧ extent body < extent body'))

theorem moved_of_altered (hleads : file.ImportsLead) (haltered : Altered file edited) : Moved file edited := by
  obtain ⟨lead, body, hsplit⟩ := hleads.exists_split
  obtain ⟨body', hedited, hlonger⟩ | ⟨lead', hedited, hextended⟩ := hsplit.altered haltered
  · exact ⟨lead, body, lead, body', hsplit, hedited, .inr ⟨rfl, hlonger⟩⟩
  · exact ⟨lead, body, lead', body, hsplit, hedited, .inl ⟨hextended.drift, le_rfl⟩⟩

theorem Moved.step (hmoved : Moved start file) (haltered : Altered file edited) : Moved start edited := by
  obtain ⟨lead, body, lead', body', hstart, hfile, hmoved⟩ := hmoved
  obtain ⟨last, hedited, hlonger⟩ | ⟨last, hedited, hextended⟩ := hfile.altered haltered
  · refine ⟨lead, body, lead', last, hstart, hedited, ?_⟩
    obtain ⟨hdrift, hbody⟩ | ⟨hsame, hbody⟩ := hmoved
    · exact .inl ⟨hdrift, by omega⟩
    · exact .inr ⟨hsame, by omega⟩
  · refine ⟨lead, body, last, body', hstart, hedited, .inl ?_⟩
    obtain ⟨hdrift, hbody⟩ | ⟨rfl, hbody⟩ := hmoved
    · exact ⟨hdrift.step hextended, hbody⟩
    · exact ⟨hextended.drift, by omega⟩

theorem Moved.render_ne (hmoved : Moved start file) (hstart : start.IsRead) (hfile : file.IsRead)
    (hheader : file.header = start.header) (htrailer : file.trailer = start.trailer) :
    file.render ≠ start.render := by
  obtain ⟨lead, body, lead', body', hsplit, hsplit', hmoved⟩ := hmoved
  intro hrender
  rw [render, render, hheader, htrailer, hsplit.declarations_eq, hsplit'.declarations_eq] at hrender
  simp only [List.append_assoc, List.flatMap_append] at hrender
  have htext := List.append_cancel_left hrender
  obtain ⟨hdrift, hbody⟩ | ⟨rfl, hbody⟩ := hmoved
  · refine hdrift.text_ne (fun declaration hmem => hstart declaration (by simp [hsplit.declarations_eq, hmem]))
      (fun declaration hmem => hfile declaration (by simp [hsplit'.declarations_eq, hmem])) hsplit.imports
      hsplit'.imports ?_ htext.symm
    simpa [extent] using hbody
  · have hlength := congrArg List.length (List.append_cancel_left htext)
    simp only [List.length_append] at hlength
    unfold extent at hbody
    omega

/-- Edits that end in a file that passes the checks leave a file as it is or move it away, and what has moved away from
a file moves further. -/
theorem moved_of_steps {final : SourceFile} (hsteps : ReflTransGen (Stepped changes) file final) (hread : file.IsRead)
    (hfinal : final.ImportsLead) :
    (final = file ∨ Moved file final) ∧ ∀ start, Moved start file → Moved start final := by
  -- Only the last file is known to have its imports first, and this goes back from each file to the one before.
  suffices hall : final.IsRead ∧ (final.ImportsLead →
      (final = file ∨ Moved file final) ∧ ∀ start, Moved start file → Moved start final) from hall.2 hfinal
  clear hfinal
  induction hsteps with
  | refl => exact ⟨hread, fun _ => ⟨.inl rfl, fun _ hmoved => hmoved⟩⟩
  | tail _ hstepped ih =>
      obtain ⟨hmiddle, ih⟩ := ih
      have haltered := altered_of_stepped hmiddle hstepped
      refine ⟨(edited_kept hstepped.edited hmiddle).2, fun hleads => ?_⟩
      have hleads' := haltered.importsLead hleads
      obtain ⟨hself, hothers⟩ := ih hleads'
      refine ⟨.inr ?_, fun start hmoved => (hothers start hmoved).step haltered⟩
      obtain rfl | hmoved := hself
      · exact moved_of_altered hleads' haltered
      · exact hmoved.step haltered

theorem violations_of_performAll {settings : Settings} {final : SourceFile} {steps : List Step}
    (hperform : performAll settings file changes = ⟨final, .ok steps⟩) :
    (changes = [] ∧ final = file) ∨ final.violations settings = [] := by
  induction changes generalizing file steps with
  | nil => exact .inl ⟨rfl, (Attempt.mk.inj hperform).1.symm⟩
  | cons change others ih =>
      obtain ⟨next, step, rest, hnext, hlast, -⟩ := performAll_cons hperform
      obtain ⟨-, rfl⟩ | hviolations := ih hlast
      · exact .inr (Change.perform_eq_ok hnext).2.1
      · exact .inr hviolations

theorem moved_of_applyAll {settings : Settings} {final : SourceFile} {report : Report} (hread : file.IsRead)
    (hall : file.applyAll changes settings = ⟨final, .ok report⟩) :
    (final = file ∨ Moved file final) ∧ ∀ start, Moved start file → Moved start final := by
  have hperform := applyAll_eq_ok hall
  obtain ⟨-, rfl⟩ | hviolations := violations_of_performAll hperform
  · exact ⟨.inl rfl, fun _ hmoved => hmoved⟩
  · have hsteps := (leads_of_performAll hperform).stepped fun _ hchange => hchange
    exact moved_of_steps hsteps hread (importsLead_of_violations hviolations)

end SourceFile

end GoGraft
