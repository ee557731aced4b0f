import GoGraft.Proofs.Departures
import GoGraft.Proofs.Preflight
import GoGraft.Proofs.Previews

/-!
# Requests that are carried out twice

A change whose aim is met leaves the file alone. Every change of a batch meets its aim, and the changes after it keep it
met, since no type, no field and no import of a file is lost. So if what was written is read as the file that was
written, a second run has nothing to do, and its write puts the same bytes in place. The limit on the size of a file
holds for what is read only, so that it can still stop the second run.
-/

namespace GoGraft

namespace SourceFile

variable {file edited : SourceFile} {changes : List Change} {path : Text}

theorem hasImport_iff (file : SourceFile) (path : Text) :
    file.hasImport path ↔ ∃ declaration ∈ file.declarations, ∃ spec ∈ declaration.imports, spec.path = path := by
  simp [hasImport, imports]

theorem hasImport_split {earlier later : List Declaration} {old new : Declaration}
    (hsplit : file.declarations = earlier ++ old :: later)
    (hkept : (∃ spec ∈ old.imports, spec.path = path) → ∃ spec ∈ new.imports, spec.path = path)
    (himport : file.hasImport path) :
    SourceFile.hasImport { file with declarations := earlier ++ new :: later } path := by
  rw [hasImport_iff, hsplit] at himport
  rw [hasImport_iff]
  obtain ⟨declaration, hmem, hspec⟩ := himport
  rw [List.mem_append, List.mem_cons] at hmem
  obtain hmem | rfl | hmem := hmem
  · exact ⟨declaration, by simp [hmem], hspec⟩
  · exact ⟨new, by simp, hkept hspec⟩
  · exact ⟨declaration, by simp [hmem], hspec⟩

theorem hasImport_insert (index : Nat) (declaration : Declaration) (himport : file.hasImport path) :
    (file.insert index declaration).hasImport path := by
  rw [hasImport_iff] at himport ⊢
  obtain ⟨other, hmem, hspec⟩ := himport
  refine ⟨other, ?_, hspec⟩
  rw [← List.take_append_drop index file.declarations, List.mem_append] at hmem
  simp only [insert, List.mem_append, List.mem_cons]
  exact hmem.imp_right .inr

theorem hasImport_of_stepped (hread : file.IsRead) (hstepped : Stepped changes file edited)
    (himport : file.hasImport path) : edited.hasImport path := by
  cases hstepped with
  | field _ _ happend =>
      obtain ⟨earlier, old, later, before, spec, others, record, new, hsplit, -, hspecs, -, -, rfl⟩ :=
        appendField_cases happend
      refine hasImport_split hsplit ?_ himport
      -- A declaration with a struct type in it has no imports that could be lost.
      rintro ⟨found, hfound, -⟩
      have hold : old.isImport := by
        unfold Declaration.imports at hfound
        split at hfound
        · rename_i hkind
          rw [Declaration.isImport, hkind]
        · cases hfound
      exact absurd hold (@not_isImport_of_mem old spec (by simp [hspecs]))
  | type _ hinsert =>
      obtain ⟨new, -, rfl⟩ := insertType_cases hinsert
      exact hasImport_insert _ new himport
  | imports _ _ happend =>
      obtain ⟨kept, text, new, htext, -, hparse, ⟨index, rfl, -⟩ | ⟨earlier, old, later, hsplit, -, rfl, hkept⟩⟩ :=
        appendImport_eq_ok hread happend
      · exact hasImport_insert index new himport
      · refine hasImport_split hsplit ?_ himport
        rintro ⟨spec, hspec, rfl⟩
        rw [← hkept] at hspec
        obtain ⟨lexeme, hlexeme, hkind, hunquote⟩ := exists_string_of_mem_importsIn hspec
        rw [← hunquote]
        exact htext.import_of_string hparse hlexeme hkind

theorem hasImport_of_leads (hleads : Leads file changes edited) (hread : file.IsRead)
    (himport : file.hasImport path) : edited.hasImport path := by
  have hsteps := hleads.stepped fun _ hchange => hchange
  clear hleads
  suffices hboth : edited.IsRead ∧ edited.hasImport path from hboth.2
  induction hsteps with
  | refl => exact ⟨hread, himport⟩
  | tail _ hstepped ih =>
      exact ⟨(edited_kept hstepped.edited ih.1).2, hasImport_of_stepped ih.1 hstepped ih.2⟩

theorem keeps_of_leads (hleads : Leads file changes edited) (hread : file.IsRead)
    (hchanges : ∀ change ∈ changes, change.IsNamed ∧ change.isWhole) : file.Keeps edited := by
  induction hleads with
  | refl file => exact .of_eq fun _ _ => rfl
  | step happly hrest ih =>
      obtain ⟨⟨hnamed, hwhole⟩, hothers⟩ := List.forall_mem_cons.mp hchanges
      obtain ⟨hnext, hkeeps, -⟩ := Change.keeps_of_apply hread hnamed (Change.isContained_of_isWhole hwhole) happly
      exact hkeeps.trans (ih hnext hothers)

end SourceFile

namespace Change

variable {file edited : SourceFile} {change : Change} {changes : List Change}

/-- What a change asks for is in the file. -/
def IsMet (file : SourceFile) : Change → Prop
  | .addField record field => ∃ fields, file.type? record = some (some fields) ∧ field.name ∈ fields.map Field.name
  | .addType type _ => (file.type? type.name).isSome
  | .addImport path _ => file.hasImport path

theorem IsMet.isPresent (hmet : change.IsMet file) : change.isPresent file := by
  cases change with
  | addField record field =>
      obtain ⟨fields, htype, hname⟩ := hmet
      have hrecord := file.record?_fields record
      rw [htype, Option.join_some] at hrecord
      obtain ⟨found, hfound, rfl⟩ := Option.map_eq_some_iff.mp hrecord
      obtain ⟨same, hsame, hsameName⟩ := List.mem_map.mp hname
      rw [Change.isPresent, hfound]
      exact List.any_eq_true.mpr ⟨same, hsame, decide_eq_true hsameName⟩
  | addType type placement =>
      rw [Change.isPresent, file.hasType_iff]
      exact hmet
  | addImport path localName => exact hmet

theorem isMet_of_apply {outcome : Outcome} (hread : file.IsRead) (hnamed : change.IsNamed) (hwhole : change.isWhole)
    (happly : change.apply file = ⟨edited, .ok outcome⟩) : change.IsMet edited := by
  cases change with
  | addField record field =>
      obtain ⟨-, -, fields, new, -, hnew, hname⟩ :=
        SourceFile.type?_of_addField hread hnamed (NewField.isContained_of_isWhole hwhole) happly
      exact ⟨fields ++ new, hnew, hname hwhole⟩
  | addType type placement =>
      have hpresent := SourceFile.hasType_of_addType hread hnamed happly
      rwa [SourceFile.hasType_iff] at hpresent
  | addImport path localName =>
      obtain ⟨-, hpath, hname⟩ := hnamed
      exact SourceFile.hasImport_of_addImport hread hpath hname happly

/-- A field that was asked for is in the struct type afterwards, and asking again changes nothing. A type that begins
with a dot makes the name of the field that of a package, and a comment can hide such a dot: then the line of the field
is to be read as fields, one of which has its name. -/
theorem apply_twice_of_field {text record : Text} {request : FieldRequest} {outcome : Outcome}
    (hparse : SourceFile.parse text = .ok file) (hchange : Request.toChange (.addField record request) = .ok change)
    (hwhole : (Text.trim request.type).head? = some '.' ∨ (Text.trim request.type).head? = some '/' → change.isWhole)
    (happly : change.apply file = ⟨edited, .ok outcome⟩) :
    (edited.record? record).any (·.hasField request.name) ∧
      change.apply edited = ⟨edited, .ok .alreadyPresent⟩ := by
  have hread := SourceFile.isRead_of_parse hparse
  have hnamed := Request.isNamed_of_toChange hchange
  obtain ⟨field, rfl, hname, hfieldName, htype⟩ := Request.toChange_addField hchange
  have hpresent : isPresent edited (.addField record field) := by
    by_cases hhidden : (Text.trim request.type).head? = some '.' ∨ (Text.trim request.type).head? = some '/'
    · exact (isMet_of_apply hread hnamed (hwhole hhidden) happly).isPresent
    · obtain ⟨c, hrender, htrim⟩ := TypeExpr.head?_render htype
      rw [htrim, not_or] at hhidden
      obtain ⟨found, hfound, hfield⟩ := SourceFile.hasField_of_addField hread hname hrender (Text.head?_trim htrim)
        (fun hc => hhidden.1 (congrArg some hc)) (fun hc => hhidden.2 (congrArg some hc)) happly
      rw [isPresent, hfound]
      exact hfield
  refine ⟨?_, apply_of_isPresent hpresent⟩
  rw [isPresent, hfieldName] at hpresent
  exact hpresent

-- The comment in front of the second type hides no dot.
theorem apply_twice_grouped_field :
    let text := "package a\n\ntype (\n\tA int\n\tB struct \x7b X int \x7d; C int\n)\n".toList
    let plain : FieldRequest := ⟨['Y'], " [2]time.Time".toList, some "json:\x22y\x22".toList, some "When.".toList⟩
    let commented : FieldRequest := ⟨['Y'], "/* . */ int".toList, none, none⟩
    ∀ request ∈ [plain, commented], ∃ change file edited, SourceFile.parse text = .ok file ∧
      Request.toChange (.addField ['B'] request) = .ok change ∧
      change.apply file = ⟨edited, .ok .applied⟩ ∧
      (edited.record? ['B']).any (·.hasField ['Y']) ∧
      change.apply edited = ⟨edited, .ok .alreadyPresent⟩ := by
  repeat rw [String.toList_ofList]
  intro text plain commented
  let first : NewField :=
    ⟨['Y'], .verbatim "[2]time.Time".toList, some "json:\x22y\x22".toList, some "When.".toList⟩
  let second : NewField := ⟨['Y'], .verbatim "/* . */ int".toList, none, none⟩
  have hplain : Request.toChange (.addField ['B'] plain) = .ok (.addField ['B'] first) :=
    eq_ok_of_toOption (by decide +kernel)
  have hcommented : Request.toChange (.addField ['B'] commented) = .ok (.addField ['B'] second) :=
    eq_ok_of_toOption (by decide +kernel)
  refine List.forall_mem_cons.mpr ⟨?_, List.forall_mem_singleton.mpr ?_⟩
  · obtain ⟨file, edited, hfile, hedited⟩ :=
      @exists_apply_of_toOption text (.addField ['B'] first) .applied (by decide +kernel)
    exact ⟨_, file, edited, hfile, hplain, hedited, apply_twice_of_field hfile hplain (by decide) hedited⟩
  · obtain ⟨file, edited, hfile, hedited⟩ :=
      @exists_apply_of_toOption text (.addField ['B'] second) .applied (by decide +kernel)
    exact ⟨_, file, edited, hfile, hcommented, hedited,
      apply_twice_of_field hfile hcommented (fun _ => by decide) hedited⟩

theorem isMet_of_leads (hleads : Leads file changes edited) (hread : file.IsRead)
    (hchanges : ∀ change ∈ changes, change.IsNamed ∧ change.isWhole) (hmet : change.IsMet file) :
    change.IsMet edited := by
  have hkeeps := SourceFile.keeps_of_leads hleads hread hchanges
  cases change with
  | addField record field =>
      obtain ⟨fields, htype, hname⟩ := hmet
      obtain ⟨new, hnew⟩ := hkeeps.records htype
      refine ⟨fields ++ new, hnew, ?_⟩
      rw [List.map_append]
      exact List.mem_append_left _ hname
  | addType type placement =>
      obtain ⟨made, hmade⟩ := Option.isSome_iff_exists.mp hmet
      cases made with
      | none => simp [IsMet, hkeeps.others hmade]
      | some fields =>
          obtain ⟨new, hnew⟩ := hkeeps.records hmade
          simp [IsMet, hnew]
  | addImport path localName => exact SourceFile.hasImport_of_leads hleads hread hmet

end Change

/-- After some changes all that they ask for is in the file. -/
theorem Leads.isMet {file final : SourceFile} {changes : List Change} (hleads : Leads file changes final)
    (hread : file.IsRead) (hchanges : ∀ change ∈ changes, change.IsNamed ∧ change.isWhole) :
    ∀ change ∈ changes, change.IsMet final := by
  induction hleads with
  | refl => nofun
  | step happly hrest ih =>
      obtain ⟨⟨hnamed, hwhole⟩, hothers⟩ := List.forall_mem_cons.mp hchanges
      have hnext := (Change.keeps_of_apply hread hnamed (Change.isContained_of_isWhole hwhole) happly).1
      refine List.forall_mem_cons.mpr ⟨?_, ih hnext hothers⟩
      exact Change.isMet_of_leads hrest hnext hothers (Change.isMet_of_apply hread hnamed hwhole happly)

theorem performAll_of_isMet {file : SourceFile} {changes : List Change} {settings : Settings}
    (haccept : changes = [] ∨ file.violations settings = []) (hmet : ∀ change ∈ changes, change.IsMet file) :
    performAll settings file changes =
      ⟨file, .ok (changes.map fun change => ⟨change.describe, .alreadyPresent⟩)⟩ := by
  induction changes with
  | nil => rfl
  | cons change others ih =>
      obtain ⟨hchange, hothers⟩ := List.forall_mem_cons.mp hmet
      obtain hnil | hviolations := haccept
      · cases hnil
      have hperform : change.perform settings file = ⟨file, .ok ⟨change.describe, .alreadyPresent⟩⟩ := by
        refine Attempt.andThen_eq_ok.mpr ⟨_, _, Change.apply_of_isPresent hchange.isPresent, ?_⟩
        rw [SourceFile.accept_eq_ok.mpr hviolations]
        rfl
      exact Attempt.andThen_eq_ok.mpr ⟨_, _, hperform,
        Attempt.andThen_eq_ok.mpr ⟨_, _, ih (.inr hviolations) hothers, rfl⟩⟩

theorem SourceFile.applyAll_again {file final : SourceFile} {changes : List Change} {settings : Settings}
    {report : Report} (hread : file.IsRead) (hchanges : ∀ change ∈ changes, change.IsNamed ∧ change.isWhole)
    (hall : file.applyAll changes settings = ⟨final, .ok report⟩) :
    ∃ repeated, final.applyAll changes settings = ⟨final, .ok repeated⟩ ∧ repeated.isNoop := by
  have hperform := applyAll_eq_ok hall
  have hmet := (leads_of_performAll hperform).isMet hread hchanges
  have haccept := (violations_of_performAll hperform).imp_left And.left
  refine ⟨_, Attempt.andThen_eq_ok.mpr
    ⟨_, _, Attempt.onFailure_eq_ok.mpr (performAll_of_isMet haccept hmet), rfl⟩, ?_⟩
  simp [Report.isNoop, Report.applied]

namespace Session

theorem load_of_read {store : Store} {path text : Text} {settings : Settings} {file : SourceFile}
    (hread : store.read path settings.maxFileSize = .ok (Utf8.encode text))
    (hparse : SourceFile.parse text = .ok file) : load store path settings = .ok ⟨path, text, file, [], settings⟩ := by
  obtain ⟨-, -, -, -, -, hbinary⟩ := Store.read_eq_ok hread
  have hdecode : decodeContent (Utf8.encode text) = .ok text := by
    rw [decodeContent, hbinary, Utf8.decode_encode]
    rfl
  unfold load
  rw [hread]
  refine bind_eq_ok.mpr ⟨_, rfl, ?_⟩
  rw [hdecode]
  refine bind_eq_ok.mpr ⟨_, rfl, ?_⟩
  rw [hparse]
  rfl

theorem write_again {session : Session} {refusals : Refusals} {store after : Store} {outcome : WriteOutcome}
    (hwrite : session.write refusals store = ⟨after, .ok outcome⟩) :
    ∃ again repeated,
      ({ session with initial := session.render } : Session).write noRefusals after = ⟨again, .ok repeated⟩ ∧
        ∀ location, again.entry? location = after.entry? location := by
  unfold write at hwrite ⊢
  -- If nothing is skipped, the first write has done each step that the second one needs.
  cases hskip : session.settings.skipUnchangedWrites with
  | true =>
      refine ⟨after, .unchanged, ?_, fun _ => rfl⟩
      exact if_pos (by simp [render])
  | false =>
      simp only [hskip, Bool.false_and, Bool.false_eq_true, ↓reduceIte] at hwrite ⊢
      have houtput : ({ session with initial := session.render } : Session).output = session.output := rfl
      rw [houtput]
      split at hwrite
      · cases hwrite
      rename_i content hcontent
      split at hwrite
      · rename_i replaced hreplace
        obtain ⟨rfl, -⟩ := Attempt.mk.inj hwrite
        obtain ⟨again, hagain, hsame⟩ := Store.replace_again hreplace
        refine ⟨again, .written content.length, ?_, hsame⟩
        rw [show noRefusals.writing = none from rfl, hagain]
        rfl
      · cases hwrite

end Session

namespace Operation

variable {operation : Operation} {refusals : Refusals} {store after : Store} {session : Session} {final : SourceFile}
  {report : Report}

theorem write_of_execute {execution : Execution} (hprepare : operation.prepare store = .ok session)
    (hall : session.file.applyAll session.pending session.settings = ⟨final, .ok report⟩)
    (hexecute : operation.execute refusals store = ⟨after, .ok execution⟩) :
    ∃ outcome,
      ({ session with file := final, pending := [] } : Session).write refusals store = ⟨after, .ok outcome⟩ := by
  have hends := operation.ends_execute refusals store
  rw [hexecute] at hends
  cases hends with
  | done hprepare' hall' hwrite =>
      obtain rfl := Except.ok.inj (hprepare.symm.trans hprepare')
      obtain ⟨rfl, -⟩ := Attempt.mk.inj (hall.symm.trans hall')
      exact ⟨_, hwrite⟩

theorem execute_of_write {outcome : WriteOutcome} (hprepare : operation.prepare store = .ok session)
    (hall : session.file.applyAll session.pending session.settings = ⟨final, .ok report⟩)
    (hwrite : ({ session with file := final, pending := [] } : Session).write refusals store = ⟨after, .ok outcome⟩) :
    operation.execute refusals store = ⟨after, .ok ⟨operation.path, report, outcome⟩⟩ := by
  have hends := operation.ends_execute refusals store
  generalize operation.execute refusals store = attempt at hends ⊢
  cases hends with
  | unprepared hunprepared => cases hprepare.symm.trans hunprepared
  | unapplied hprepare' hunapplied =>
      obtain rfl := Except.ok.inj (hprepare.symm.trans hprepare')
      cases hall.symm.trans hunapplied
  | unwritten hprepare' hall' hunwritten =>
      obtain rfl := Except.ok.inj (hprepare.symm.trans hprepare')
      obtain ⟨rfl, -⟩ := Attempt.mk.inj (hall.symm.trans hall')
      cases hwrite.symm.trans hunwritten
  | done hprepare' hall' hwrite' =>
      obtain rfl := Except.ok.inj (hprepare.symm.trans hprepare')
      obtain ⟨rfl, hreport⟩ := Attempt.mk.inj (hall.symm.trans hall')
      obtain ⟨rfl, houtcome⟩ := Attempt.mk.inj (hwrite.symm.trans hwrite')
      rw [Except.ok.inj hreport, Except.ok.inj houtcome]

theorem execute_of_unread {changes : List Change} {error : StoreError} (hchanges : operation.changes = .ok changes)
    (hread : store.read operation.path operation.settings.maxFileSize = .error error) :
    operation.execute refusals store = ⟨store, .error (.unread error)⟩ := by
  have hload : Session.load store operation.path operation.settings = .error (.unread error) := by
    unfold Session.load
    rw [hread]
    rfl
  have hprepare : operation.prepare store = .error (.unread error) := by
    unfold prepare
    rw [hchanges, hload]
    rfl
  unfold execute
  rw [hprepare]
  rfl

/-- Requests that were carried out find nothing to do when they are carried out again: no change is applied, and every
entry of the store is as it was. Only what the first run has written is to be read again, and the second run fails if
that is beyond the limits. The line of each field is to be read as fields, and the seams of the edited file are to be
clean. -/
theorem execute_again {execution : Execution} (hprepare : operation.prepare store = .ok session)
    (hall : session.file.applyAll session.pending session.settings = ⟨final, .ok report⟩)
    (hwhole : ∀ change ∈ session.pending, change.isWhole) (hclean : ∀ seam ∈ final.seams, final.isClean seam)
    (hexecute : operation.execute refusals store = ⟨after, .ok execution⟩) :
    (∀ content, after.read operation.path operation.settings.maxFileSize = .ok content →
      ∃ again repeated, operation.execute noRefusals after = ⟨again, .ok repeated⟩ ∧ repeated.report.isNoop ∧
        ∀ location, again.entry? location = after.entry? location) ∧
    ∀ error, after.read operation.path operation.settings.maxFileSize = .error error →
      operation.execute noRefusals after = ⟨after, .error (.unread error)⟩ := by
  obtain ⟨outcome, hwrite⟩ := write_of_execute hprepare hall hexecute
  obtain ⟨changes, location, content, mode, hrequests, hresolve, hentry, hdecode, hparse, hsession⟩ :=
    prepare_eq_ok hprepare
  obtain ⟨path, initial, file, pending, settings⟩ := session
  obtain ⟨rfl, -, -, rfl, rfl⟩ := Session.mk.inj hsession
  have hchanges : operation.changes = .ok pending := mapError_eq_ok.mpr hrequests
  rw [← encode_of_decodeContent hdecode] at hentry
  obtain ⟨hafter, hothers⟩ := entry?_of_write hwrite hresolve hentry
  constructor
  · intro written hread
    -- What is read is what was written, and it is read as the edited file: the second run begins where the first ended.
    have hleads := leads_of_performAll (SourceFile.applyAll_eq_ok hall)
    have hfile := SourceFile.isRead_of_parse hparse
    obtain ⟨⟨hheader, hpackage, htrailer⟩, hfinal⟩ := SourceFile.leads_kept hleads hfile
    have hreparse := (SourceFile.parse_render_iff hparse hheader hpackage htrailer hfinal).mpr hclean
    obtain ⟨location', mode', hresolve', hentry', -⟩ := Store.read_eq_ok hread
    rw [Store.resolve?_of_others hentry hafter hothers, hresolve] at hresolve'
    obtain rfl := Option.some.inj hresolve'
    obtain ⟨rfl, -⟩ := Entry.file.inj (Option.some.inj (hafter.symm.trans hentry'))
    have hagain := prepare_of_load hchanges (Session.load_of_read hread hreparse)
    have hfields : ∀ change ∈ pending, change.IsNamed ∧ change.isWhole :=
      fun change hchange => ⟨isNamed_of_changes hchanges change hchange, hwhole change hchange⟩
    obtain ⟨repeated, hrepeated, hnoop⟩ := SourceFile.applyAll_again hfile hfields hall
    obtain ⟨again, outcome', hrewrite, hsame⟩ := Session.write_again hwrite
    exact ⟨again, _, execute_of_write hagain hrepeated hrewrite, hnoop, hsame⟩
  · intro error hread
    exact execute_of_unread hchanges hread

theorem execute_again_batch :
    let requests : List Request :=
      [.addType ⟨['B'], none, [⟨['X'], "*A".toList, none, none⟩], none, false, .after ['A']⟩,
        .addField ['A'] ⟨['T'], "time.Time".toList, some "t".toList, none⟩, .addImport "fmt".toList none]
    let operation : Operation := ⟨"a.go".toList, requests, .standard⟩
    let text := "package a\n\nimport \x22os\x22\n\ntype A struct \x7b\x7d\n".toList
    let store : Store := ⟨[(["a.go".toList], .file (Utf8.encode text) 0o640)]⟩
    ∃ after execution again repeated, operation.execute noRefusals store = ⟨after, .ok execution⟩ ∧
      execution.report.applied = 3 ∧ operation.execute noRefusals after = ⟨again, .ok repeated⟩ ∧
      repeated.report.isNoop ∧ ∀ location, again.entry? location = after.entry? location := by
  repeat rw [String.toList_ofList]
  intro requests operation text store
  have hedits : (operation.prepare store).toOption.any fun session =>
      session.pending.all Change.isWhole &&
        (session.file.applyAll session.pending session.settings).toOption.any fun result =>
          decide (∀ seam ∈ result.1.seams, result.1.isClean seam) := by
    decide
  have hrun : (operation.execute noRefusals store).toOption.any fun result =>
      decide (result.2.report.applied = 3) &&
        (result.1.read operation.path operation.settings.maxFileSize).toOption.isSome := by
    decide +kernel
  obtain ⟨session, hprepare, hedits⟩ := (Option.any_eq_true ..).mp hedits
  obtain ⟨hwhole, hedits⟩ := (Bool.and_eq_true ..).mp hedits
  obtain ⟨⟨final, report⟩, hall, hclean⟩ := (Option.any_eq_true ..).mp hedits
  obtain ⟨⟨after, execution⟩, hexecute, hrun⟩ := (Option.any_eq_true ..).mp hrun
  obtain ⟨happlied, hread⟩ := (Bool.and_eq_true ..).mp hrun
  obtain ⟨content, hcontent⟩ := Option.isSome_iff_exists.mp hread
  have hexecute := Attempt.eq_of_toOption hexecute
  obtain ⟨again, repeated, hrepeated⟩ :=
    (execute_again (eq_ok_of_toOption hprepare) (Attempt.eq_of_toOption hall) (List.all_eq_true.mp hwhole)
      (of_decide_eq_true hclean) hexecute).1 content (eq_ok_of_toOption hcontent)
  exact ⟨after, execution, again, repeated, hexecute, of_decide_eq_true happlied, hrepeated⟩

/-- What a run writes can be too large for the next one. -/
theorem execute_too_large_again :
    let operation : Operation :=
      ⟨"a.go".toList, [.addImport "fmt".toList none], { Settings.standard with maxFileSize := 12 }⟩
    let store : Store := ⟨[(["a.go".toList], .file (Utf8.encode "package a\n".toList) 0o644)]⟩
    ∃ after execution, operation.execute noRefusals store = ⟨after, .ok execution⟩ ∧
      (operation.execute noRefusals after).result = .error (.unread (.tooLarge 29 12)) := by
  repeat rw [String.toList_ofList]
  intro operation store
  have hruns : (operation.execute noRefusals store).toOption.any fun result =>
      match (operation.execute noRefusals result.1).result with
      | .ok _ => false
      | .error failure => decide (failure = .unread (.tooLarge 29 12)) := by
    decide
  obtain ⟨⟨after, execution⟩, hexecute, hsecond⟩ := (Option.any_eq_true ..).mp hruns
  refine ⟨after, execution, Attempt.eq_of_toOption hexecute, ?_⟩
  cases hresult : (operation.execute noRefusals after).result with
  | ok =>
      simp only [hresult] at hsecond
      cases hsecond
  | error failure =>
      simp only [hresult] at hsecond
      rw [of_decide_eq_true hsecond]

end Operation

end GoGraft
