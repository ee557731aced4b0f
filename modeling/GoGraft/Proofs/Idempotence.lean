import GoGraft.Proofs.TypeInsertion

/-!
# Changes that are made twice

A change that adds a type or an import finds it in the file that it has made, and so leaves that file alone.
-/

namespace GoGraft

theorem checkIdentifier_eq_ok {name : Text} : checkIdentifier name = .ok () ↔ isIdentifier name := by
  unfold checkIdentifier
  split <;> simp [*]

theorem checkLocalName_eq_ok {name : Text} (hcheck : checkLocalName name = .ok ()) :
    name = ['.'] ∨ isIdentifier name := by
  unfold checkLocalName at hcheck
  split at hcheck
  · exact .inl ‹_›
  · exact .inr (checkIdentifier_eq_ok.mp hcheck)

namespace Request

variable {change : Change}

theorem toChange_addType {request : TypeRequest} (hchange : toChange (.addType request) = .ok change) :
    ∃ type placement, change = .addType type placement ∧ type.name = request.name ∧
      isIdentifier type.name := by
  obtain ⟨type, htype, hchange⟩ := bind_eq_ok.mp hchange
  obtain ⟨-, -, hchange⟩ := bind_eq_ok.mp hchange
  obtain rfl := Except.ok.inj hchange
  obtain ⟨-, -, htype⟩ := bind_eq_ok.mp htype
  obtain ⟨body, -, htype⟩ := bind_eq_ok.mp htype
  obtain ⟨_, hcheck, htype⟩ := bind_eq_ok.mp htype
  obtain rfl := Except.ok.inj htype
  obtain ⟨-, -, hcheck⟩ := bind_eq_ok.mp hcheck
  obtain ⟨_, hidentifier, -⟩ := bind_eq_ok.mp hcheck
  exact ⟨_, _, rfl, rfl, checkIdentifier_eq_ok.mp hidentifier⟩

theorem toChange_addImport {path : Text} {localName : Option Text}
    (hchange : toChange (.addImport path localName) = .ok change) :
    change = .addImport path localName ∧ isImportPath path ∧
      ∀ name ∈ localName, name = ['.'] ∨ isIdentifier name := by
  obtain ⟨-, -, hchange⟩ := bind_eq_ok.mp hchange
  obtain ⟨_, hcheck, hchange⟩ := bind_eq_ok.mp hchange
  have hpath : isImportPath path := by
    unfold checkImportPath at hcheck
    split at hcheck
    · assumption
    · cases hcheck
  cases localName with
  | none =>
      obtain rfl := Except.ok.inj hchange
      exact ⟨rfl, hpath, by simp⟩
  | some name =>
      obtain ⟨_, hname, hchange⟩ := bind_eq_ok.mp hchange
      obtain rfl := Except.ok.inj hchange
      refine ⟨rfl, hpath, ?_⟩
      intro other hother
      obtain rfl := Option.some.inj hother
      exact checkLocalName_eq_ok hname

end Request

namespace SourceFile

variable {file edited : SourceFile} {outcome : Outcome}

theorem hasType_of_addType {type : NewType} {placement : Placement} (hread : file.IsRead)
    (hname : isIdentifier type.name) (hadd : file.addType type placement = ⟨edited, .ok outcome⟩) :
    edited.hasType type.name := by
  obtain ⟨hpresent, rfl, -⟩ | ⟨-, -, next, hedits, hensured⟩ := @Change.apply_eq_ok (.addType type placement) _ _ _ hadd
  · exact hpresent
  · cases hedits with
    | type hinsert =>
        obtain ⟨hnext, hpresent⟩ := hasType_of_insertType hread hname hinsert
        rw [hasType_eq] at hpresent ⊢
        rw [(ensureImports_types hnext hensured).2]
        exact hpresent

theorem hasImport_of_addImport {path : Text} {localName : Option Text} (hread : file.IsRead)
    (hpath : isImportPath path) (hname : ∀ name ∈ localName, name = ['.'] ∨ isIdentifier name)
    (hadd : file.addImport path localName = ⟨edited, .ok outcome⟩) : edited.hasImport path := by
  obtain ⟨hpresent, rfl, -⟩ | ⟨-, -, next, hedits, hensured⟩ := @Change.apply_eq_ok (.addImport path localName) _ _ _ hadd
  · exact hpresent
  · obtain rfl := (Attempt.mk.inj hensured).1
    cases hedits with
    | imports happend => exact hasImport_of_appendImport hread hpath hname happend

end SourceFile

theorem exists_apply_of_toOption {text : Text} {change : Change} {outcome : Outcome}
    (hsome : ((SourceFile.parse text).toOption.bind fun file => (change.apply file).result.toOption) =
      some outcome) :
    ∃ file edited, SourceFile.parse text = .ok file ∧ change.apply file = ⟨edited, .ok outcome⟩ := by
  obtain ⟨file, hfile, hresult⟩ := Option.bind_eq_some_iff.mp hsome
  refine ⟨file, (change.apply file).state, eq_ok_of_toOption hfile, ?_⟩
  rw [← eq_ok_of_toOption hresult]

namespace Change

open SourceFile

/-- A type or an import that was asked for is in the file afterwards, and asking again changes nothing. -/
theorem apply_twice_of_type_or_import {text : Text} {file edited : SourceFile} {change : Change}
    {outcome : Outcome} (hparse : SourceFile.parse text = .ok file)
    (happly : change.apply file = ⟨edited, .ok outcome⟩) :
    (∀ request, Request.toChange (.addType request) = .ok change →
      edited.hasType request.name ∧ change.apply edited = ⟨edited, .ok .alreadyPresent⟩) ∧
    ∀ path localName, Request.toChange (.addImport path localName) = .ok change →
      edited.hasImport path ∧ change.apply edited = ⟨edited, .ok .alreadyPresent⟩ := by
  have hread := isRead_of_parse hparse
  constructor
  · intro request hchange
    obtain ⟨type, placement, rfl, hname, hidentifier⟩ := Request.toChange_addType hchange
    have hpresent := hasType_of_addType hread hidentifier happly
    refine ⟨hname ▸ hpresent, ?_⟩
    change edited.addType type placement = _
    rw [SourceFile.addType, if_pos hpresent]
    rfl
  · intro path localName hchange
    obtain ⟨rfl, hpath, hname⟩ := Request.toChange_addImport hchange
    have hpresent := hasImport_of_addImport hread hpath hname happly
    refine ⟨hpresent, ?_⟩
    change edited.addImport path localName = _
    rw [SourceFile.addImport, if_pos hpresent]
    rfl

theorem apply_twice_time :
    let text := "package a\n\nimport \"os\"\n".toList
    let request : TypeRequest :=
      ⟨['T'], some "A time.".toList, [⟨['U'], "time.Time".toList, none, none⟩], none, false, .last⟩
    let type : NewType :=
      ⟨['T'], some "A time.".toList, .record [⟨['U'], .qualified "time".toList "Time".toList, none, none⟩]⟩
    let dotted : Change := .addImport "fmt".toList (some ['.'])
    (∃ file edited, SourceFile.parse text = .ok file ∧
      Request.toChange (.addType request) = .ok (.addType type .last) ∧
      apply (.addType type .last) file = ⟨edited, .ok .applied⟩ ∧
      edited.hasType ['T'] ∧ apply (.addType type .last) edited = ⟨edited, .ok .alreadyPresent⟩) ∧
    ∃ file edited, SourceFile.parse text = .ok file ∧
      Request.toChange (.addImport "fmt".toList (some ['.'])) = .ok dotted ∧
      dotted.apply file = ⟨edited, .ok .applied⟩ ∧
      edited.hasImport "fmt".toList ∧ dotted.apply edited = ⟨edited, .ok .alreadyPresent⟩ := by
  intro text request type dotted
  have hrequest : Request.toChange (.addType request) = .ok (.addType type .last) :=
    eq_ok_of_toOption (by decide +kernel)
  constructor
  · obtain ⟨file, edited, hfile, hedited⟩ :=
      @exists_apply_of_toOption text (.addType type .last) .applied (by decide +kernel)
    exact ⟨file, edited, hfile, hrequest, hedited,
      (apply_twice_of_type_or_import hfile hedited).1 request hrequest⟩
  · obtain ⟨file, edited, hfile, hedited⟩ :=
      @exists_apply_of_toOption text dotted .applied (by decide +kernel)
    exact ⟨file, edited, hfile, rfl, hedited,
      (apply_twice_of_type_or_import hfile hedited).2 "fmt".toList (some ['.']) rfl⟩

end Change

end GoGraft
