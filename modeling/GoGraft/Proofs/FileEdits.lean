import GoGraft.Proofs.Attempts
import GoGraft.Proofs.ImportEdits
import GoGraft.Proofs.Lookups
import GoGraft.Proofs.Results

/-!
# Edits of a file

An edit adds a declaration or puts one in the place of another, and each declaration of the edited file is again what
its text is read as. Imports that are added leave the types of the file alone, whatever path was asked for.
-/

namespace GoGraft

theorem isLineEnding_firstLineEnding {text ending : Text} (hending : firstLineEnding text = some ending) :
    IsLineEnding ending := by
  unfold firstLineEnding at hending
  split at hending
  · cases hending
  · obtain rfl := Option.some.inj hending
    split
    · exact .inr rfl
    · exact .inl rfl

theorem typeSpecs_of_isImport {declaration : Declaration} (himport : declaration.isImport) :
    declaration.typeSpecs = [] := by
  obtain ⟨text, kind⟩ := declaration
  cases kind with
  | imports => rfl
  | _ => cases himport

theorem not_isImport_of_mem {declaration : Declaration} {spec : TypeSpec} (hspec : spec ∈ declaration.typeSpecs) :
    ¬ declaration.isImport := by
  intro himport
  rw [typeSpecs_of_isImport himport] at hspec
  cases hspec

/-- An import declaration that can take a further import. -/
def Declaration.isExtendable (declaration : Declaration) : Bool :=
  declaration.isImport && !declaration.imports.any (·.path = SourceFile.preamblePath)

/-- The text of a new type declaration. -/
def newTypeText (type : NewType) (newline : Text) : Text :=
  newline ++ newline ++ type.render newline

/-- The text of a new import declaration. -/
def newImportText (path : Text) (localName : Option Text) (newline : Text) : Text :=
  newline ++ newline ++ importOpening ++ newline ++ '\t' :: renderImport path localName ++ newline ++ [')']

namespace SourceFile

variable {file edited : SourceFile}

theorem isLineEnding_lineEnding (file : SourceFile) : IsLineEnding file.lineEnding := by
  unfold lineEnding
  cases hfind : List.findSome? firstLineEnding
      (file.header :: file.declarations.map Declaration.text ++ [file.trailer]) with
  | none => exact .inl rfl
  | some ending =>
      obtain ⟨text, -, hending⟩ := List.exists_of_findSome?_eq_some hfind
      exact isLineEnding_firstLineEnding hending

theorem readEdited_eq_ok {text : Text} {declaration : Declaration} :
    readEdited text = .ok declaration ↔ Declaration.parse text = .ok declaration :=
  mapError_eq_ok

theorem replace_eq {index : Nat} {old : Declaration} (hold : file.declarations[index]? = some old) (new : Declaration) :
    ∃ earlier later, file.declarations = earlier ++ old :: later ∧ index = earlier.length ∧
      file.replace index new = { file with declarations := earlier ++ new :: later } := by
  obtain ⟨hindex, hget⟩ := List.getElem?_eq_some_iff.mp hold
  refine ⟨file.declarations.take index, file.declarations.drop (index + 1), ?_, ?_, ?_⟩
  · rw [← hget, List.getElem_cons_drop, List.take_append_drop]
  · exact (List.length_take_of_le (Nat.le_of_lt hindex)).symm
  · rw [replace, List.set_eq_take_append_cons_drop, if_pos hindex]

theorem appendField_cases {location : TypeLocation} {field : NewField}
    (happend : file.appendField location field = .ok edited) :
    ∃ earlier old later before spec others record new, file.declarations = earlier ++ old :: later ∧
      location = ⟨earlier.length, before.length⟩ ∧ old.typeSpecs = before ++ spec :: others ∧
      spec.body = .record record ∧
      Declaration.parse (spliceBefore old.text record.close record.indent file.lineEnding
        fun indent => field.render indent file.lineEnding) = .ok new ∧
      edited = { file with declarations := earlier ++ new :: later } := by
  unfold appendField at happend
  split at happend
  · rename_i old spec hold hspec
    rw [typeSpec?, hold, Option.bind_eq_bind, Option.bind_some] at hspec
    split at happend
    · cases happend
    · rename_i record hbody
      obtain ⟨new, hparse, hpure⟩ := bind_eq_ok.mp happend
      obtain ⟨earlier, later, hsplit, hindex, hreplace⟩ := replace_eq hold new
      obtain ⟨hlt, hget⟩ := List.getElem?_eq_some_iff.mp hspec
      refine ⟨earlier, old, later, old.typeSpecs.take location.spec, spec, old.typeSpecs.drop (location.spec + 1),
        record, new, hsplit, ?_, ?_, hbody, readEdited_eq_ok.mp hparse, ?_⟩
      · rw [List.length_take_of_le (Nat.le_of_lt hlt), ← hindex]
      · rw [← hget, List.getElem_cons_drop, List.take_append_drop]
      · rw [← hreplace, pure_eq_ok.mp hpure]
  · cases happend

theorem insertType_cases {index position : Nat} {type : NewType}
    (hinsert : file.insertType index type = .ok (edited, position)) :
    ∃ new, Declaration.parse (newTypeText type file.lineEnding) = .ok new ∧ edited = file.insert index new := by
  obtain ⟨new, hparse, hpure⟩ := bind_eq_ok.mp hinsert
  exact ⟨new, readEdited_eq_ok.mp hparse, (Prod.mk.inj (pure_eq_ok.mp hpure)).1.symm⟩

theorem extendableImport?_eq_none :
    file.extendableImport? = none ↔ ∀ declaration ∈ file.declarations, ¬ declaration.isExtendable := by
  change file.declarations.findIdx? Declaration.isExtendable = none ↔ _
  simp

/-- An import is written into the first declaration that can take it, and else into one that is new. -/
theorem appendImport_cases {path : Text} {localName : Option Text}
    (happend : file.appendImport path localName = .ok edited) :
    (∃ new, (∀ declaration ∈ file.declarations, ¬ declaration.isExtendable) ∧
        Declaration.parse (newImportText path localName file.lineEnding) = .ok new ∧
        edited = file.insert file.leadingImports new) ∨
      ∃ earlier old later specs layout new, file.declarations = earlier ++ old :: later ∧
        (∀ declaration ∈ earlier, ¬ declaration.isExtendable) ∧ old.isExtendable ∧
        old.kind = .imports specs layout ∧
        Declaration.parse (extendImport old.text layout file.lineEnding (renderImport path localName)) = .ok new ∧
        edited = { file with declarations := earlier ++ new :: later } := by
  unfold appendImport at happend
  dsimp only at happend
  split at happend
  · rename_i hnone
    obtain ⟨new, hparse, hpure⟩ := bind_eq_ok.mp happend
    exact .inl ⟨new, extendableImport?_eq_none.mp hnone, readEdited_eq_ok.mp hparse, (pure_eq_ok.mp hpure).symm⟩
  · rename_i index hsome
    split at happend
    · rename_i text specs layout hold
      obtain ⟨new, hparse, hpure⟩ := bind_eq_ok.mp happend
      obtain ⟨earlier, later, hsplit, rfl, hreplace⟩ := replace_eq hold new
      obtain ⟨hlt, hfound, hearlier⟩ := List.findIdx?_eq_some_iff_getElem.mp hsome
      refine .inr ⟨earlier, _, later, specs, layout, new, hsplit, ?_, ?_, rfl, readEdited_eq_ok.mp hparse, ?_⟩
      · intro declaration hmem
        obtain ⟨i, hi, rfl⟩ := List.getElem_of_mem hmem
        have hnot := hearlier i hi
        simp only [hsplit, List.getElem_append_left hi] at hnot
        exact hnot
      · rwa [(List.getElem?_eq_some_iff.mp hold).2] at hfound
      · rw [← hreplace, pure_eq_ok.mp hpure]
    · cases happend

/-- An import is added in a new declaration, or in place of an import declaration, whose imports are kept. -/
theorem appendImport_eq_ok {path : Text} {localName : Option Text} (hread : file.IsRead)
    (happend : file.appendImport path localName = .ok edited) :
    ∃ kept text declaration, ImportText kept text (renderImport path localName) ∧ openName none kept = none ∧
      Declaration.parse text = .ok declaration ∧
      ((∃ index, edited = file.insert index declaration ∧ importsIn none kept = []) ∨
        ∃ earlier old later, file.declarations = earlier ++ old :: later ∧ old.isImport ∧
          edited = { file with declarations := earlier ++ declaration :: later } ∧
          importsIn none kept = old.imports) := by
  have hnewline := file.isLineEnding_lineEnding
  obtain ⟨new, -, hparse, rfl⟩ | ⟨earlier, old, later, specs, layout, new, hsplit, -, hold, hkind, hparse, rfl⟩ :=
    appendImport_cases happend
  · exact ⟨_, _, new, importText_new (renderImport path localName) hnewline, rfl, hparse, .inl ⟨_, rfl, rfl⟩⟩
  · obtain ⟨text, kind⟩ := old
    obtain rfl : kind = .imports specs layout := hkind
    have hmem : Declaration.mk text (.imports specs layout) ∈ file.declarations := by simp [hsplit]
    obtain ⟨kept, htext, -, hkept, hopen⟩ := importText_extend (renderImport path localName) (hread _ hmem) hnewline
    exact ⟨kept, _, new, htext, hopen, hparse, .inr ⟨earlier, _, later, hsplit, rfl, rfl, hkept⟩⟩

theorem isRead_insert {declaration : Declaration} (index : Nat) (hread : file.IsRead)
    (hdeclaration : declaration.IsRead) : (file.insert index declaration).IsRead := by
  intro other hother
  simp only [insert, List.mem_append, List.mem_cons] at hother
  obtain hother | rfl | hother := hother
  · exact hread other (List.mem_of_mem_take hother)
  · exact hdeclaration
  · exact hread other (List.mem_of_mem_drop hother)

theorem isRead_replace {declaration : Declaration} (index : Nat) (hread : file.IsRead)
    (hdeclaration : declaration.IsRead) : (file.replace index declaration).IsRead := by
  intro other hother
  obtain hother | rfl := List.mem_or_eq_of_mem_set hother
  · exact hread other hother
  · exact hdeclaration

theorem isRead_split {earlier later : List Declaration} {old new : Declaration} (hread : file.IsRead)
    (hsplit : file.declarations = earlier ++ old :: later) (hnew : new.IsRead) :
    SourceFile.IsRead { file with declarations := earlier ++ new :: later } := by
  intro other hother
  obtain hother | hother := List.mem_append.mp hother
  · exact hread other (by simp [hsplit, hother])
  · obtain rfl | hother := List.mem_cons.mp hother
    · exact hnew
    · exact hread other (by simp [hsplit, hother])

theorem allTypeSpecs_insert (file : SourceFile) (index : Nat) (declaration : Declaration) :
    (file.insert index declaration).allTypeSpecs =
      (file.declarations.take index).flatMap Declaration.typeSpecs ++
        (declaration.typeSpecs ++ (file.declarations.drop index).flatMap Declaration.typeSpecs) := by
  simp [allTypeSpecs, insert]

theorem appendImport_types {path : Text} {localName : Option Text} (hread : file.IsRead)
    (happend : file.appendImport path localName = .ok edited) :
    edited.IsRead ∧ edited.allTypeSpecs = file.allTypeSpecs := by
  obtain ⟨kept, text, declaration, htext, -, hparse, hedited⟩ := appendImport_eq_ok hread happend
  have hdeclaration := (Declaration.isRead_of_parse hparse).1
  have hnone := typeSpecs_of_isImport (htext.isImport hparse)
  obtain ⟨index, rfl, -⟩ | ⟨earlier, old, later, hsplit, hold, rfl, -⟩ := hedited
  · refine ⟨isRead_insert index hread hdeclaration, ?_⟩
    rw [allTypeSpecs_insert, hnone, List.nil_append, ← List.flatMap_append, List.take_append_drop]
    rfl
  · refine ⟨isRead_split hread hsplit hdeclaration, ?_⟩
    simp [allTypeSpecs, hsplit, hnone, typeSpecs_of_isImport hold]

theorem hasImport_of_appendImport {path : Text} {localName : Option Text} (hread : file.IsRead)
    (hpath : isImportPath path) (hname : ∀ name ∈ localName, name = ['.'] ∨ isIdentifier name)
    (happend : file.appendImport path localName = .ok edited) : edited.hasImport path := by
  obtain ⟨kept, text, declaration, htext, -, hparse, hedited⟩ := appendImport_eq_ok hread happend
  obtain ⟨spec, hspec, hspecPath⟩ := htext.exists_import hpath hname hparse
  have hmem : declaration ∈ edited.declarations := by
    obtain ⟨index, rfl, -⟩ | ⟨earlier, old, later, -, -, rfl, -⟩ := hedited
    · simp [insert]
    · simp
  apply List.any_eq_true.mpr
  exact ⟨spec, List.mem_flatMap.mpr ⟨declaration, hmem, hspec⟩, decide_eq_true hspecPath⟩

theorem imports_split {earlier later : List Declaration} (declaration : Declaration) :
    imports { file with declarations := earlier ++ declaration :: later } =
      earlier.flatMap Declaration.imports ++ (declaration.imports ++ later.flatMap Declaration.imports) := by
  simp [imports]

/-- An import without a local name is put among those that the file has. -/
theorem imports_of_appendImport {path : Text} (hread : file.IsRead)
    (hpath : ∀ c ∈ path, c ≠ '\x22' ∧ c ≠ '\\' ∧ c ≠ '\n') (happend : file.appendImport path none = .ok edited) :
    ∃ before after, file.imports = before ++ after ∧
      edited.imports = before ++ ⟨none, path, renderImport path none⟩ :: after := by
  obtain ⟨kept, text, new, htext, hopen, hparse, hedited⟩ := appendImport_eq_ok hread happend
  have hnew := htext.imports_eq hpath hopen hparse
  obtain ⟨index, rfl, hkept⟩ | ⟨earlier, old, later, hsplit, hold, rfl, hkept⟩ := hedited
  · rw [hkept, List.nil_append] at hnew
    refine ⟨(file.declarations.take index).flatMap Declaration.imports,
      (file.declarations.drop index).flatMap Declaration.imports, ?_, ?_⟩
    · rw [← List.flatMap_append, List.take_append_drop, imports]
    · rw [insert, imports_split, hnew]
      rfl
  · have hfile := @imports_split file earlier later old
    rw [← hsplit] at hfile
    rw [hkept] at hnew
    refine ⟨earlier.flatMap Declaration.imports ++ old.imports, later.flatMap Declaration.imports, ?_, ?_⟩
    · rw [List.append_assoc]
      exact hfile
    · rw [imports_split, hnew]
      simp

theorem ensureImports_types {packages : List Text} (hread : file.IsRead)
    (hensure : file.ensureImports packages = ⟨edited, .ok ()⟩) :
    edited.IsRead ∧ edited.allTypeSpecs = file.allTypeSpecs := by
  induction packages generalizing file with
  | nil =>
      obtain rfl := (Attempt.mk.inj hensure).1
      exact ⟨hread, rfl⟩
  | cons package others ih =>
      unfold ensureImports at hensure
      split at hensure
      · exact ih hread hensure
      · split at hensure
        · rename_i next happend
          obtain ⟨hnext, htypes⟩ := appendImport_types hread happend
          obtain ⟨hedited, hsame⟩ := ih hnext hensure
          exact ⟨hedited, hsame.trans htypes⟩
        · cases hensure

end SourceFile

end GoGraft
