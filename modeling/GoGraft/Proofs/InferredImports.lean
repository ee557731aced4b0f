import Mathlib.Data.Finset.Card
import GoGraft.Proofs.Departures

/-!
# Imports that types need

A change that writes types imports the packages that they name, and no others. Each package counts once, however often
and wherever it is named. One that the file has an import for gets none, so no import of the file is lost or moved among
the others, and the file has as many more as there are packages that were missing.
-/

namespace GoGraft

/-! ## The packages that types name -/

section Once

variable {seen texts : List Text} {text : Text}

theorem mem_foldl_once :
    text ∈ texts.foldl (fun seen text => if seen.contains text then seen else seen ++ [text]) seen ↔
      text ∈ seen ∨ text ∈ texts := by
  induction texts generalizing seen with
  | nil => simp
  | cons first others ih =>
      rw [List.foldl_cons, ih]
      split
      · rename_i hseen
        have hmem : text = first → text ∈ seen := fun heq => heq ▸ List.contains_iff_mem.mp hseen
        rw [List.mem_cons]
        tauto
      · simp only [List.mem_append, List.mem_cons]
        tauto

theorem nodup_foldl_once (hseen : seen.Nodup) :
    (texts.foldl (fun seen text => if seen.contains text then seen else seen ++ [text]) seen).Nodup := by
  induction texts generalizing seen with
  | nil => exact hseen
  | cons first others ih =>
      rw [List.foldl_cons]
      split
      · exact ih hseen
      · rename_i hnew
        apply ih
        rw [List.nodup_append']
        refine ⟨hseen, List.nodup_singleton first, ?_⟩
        simpa using hnew

end Once

theorem TypeExpr.mem_packages {type : TypeExpr} {package : Text} :
    package ∈ type.packages ↔ package ∈ type.mentions := by
  rw [packages, mem_foldl_once]
  simp

theorem mem_requiredPackages {types : List TypeExpr} {package : Text} :
    package ∈ requiredPackages types ↔ package ∈ types.flatMap TypeExpr.packages := by
  rw [requiredPackages, mem_foldl_once]
  simp

theorem nodup_requiredPackages (types : List TypeExpr) : (requiredPackages types).Nodup :=
  nodup_foldl_once List.nodup_nil

namespace TypeExpr

theorem mentions_readName {text : Text} : ∀ package ∈ (readName text).mentions, isIdentifier package := by
  obtain hname | ⟨package, name, hname, -, hpackage, -⟩ := readName_cases text
  · rw [hname]
    exact List.forall_mem_nil _
  · rw [hname]
    exact List.forall_mem_singleton.mpr hpackage

/-- A package that is named in a type expression that was read is an identifier. -/
theorem Spells.mentions {text : Text} {type : TypeExpr} (hspells : Spells text type) :
    ∀ package ∈ type.mentions, isIdentifier package := by
  induction hspells with
  | pointer _ _ ih => exact ih
  | slice _ _ ih => exact ih
  | mapping _ _ _ _ _ ihKey ihValue => exact List.forall_mem_append.mpr ⟨ihKey, ihValue⟩
  | unclosed => exact List.forall_mem_nil _
  | name => exact mentions_readName

end TypeExpr

theorem TypeRequest.toBody_types {request : TypeRequest} {body : NewBody} (hbody : request.toBody = .ok body)
    (name : Text) (doc : Option Text) :
    ∀ type ∈ (NewType.mk name doc body).referencedTypes, ∃ text, TypeExpr.read text = .ok type := by
  unfold toBody at hbody
  split at hbody
  · rename_i text _
    split at hbody
    · cases hbody
    · obtain ⟨type, htype, hbody⟩ := bind_eq_ok.mp hbody
      obtain rfl := pure_eq_ok.mp hbody
      have hread := read_of_readType htype
      split
      · exact List.forall_mem_singleton.mpr ⟨text, hread⟩
      · exact List.forall_mem_singleton.mpr ⟨text, hread⟩
  · split at hbody
    · cases hbody
    · obtain ⟨fields, hfields, hbody⟩ := bind_eq_ok.mp hbody
      obtain rfl := pure_eq_ok.mp hbody
      intro type htype
      obtain ⟨field, hfield, rfl⟩ := List.mem_map.mp htype
      obtain ⟨asked, -, hasked⟩ := exists_of_mem_mapM hfields hfield
      exact ⟨asked.type, (FieldRequest.toField_eq_ok hasked).2.2⟩

theorem Request.toChange_types {request : Request} {change : Change} (hchange : request.toChange = .ok change) :
    ∀ type ∈ change.types, ∃ text, TypeExpr.read text = .ok type := by
  cases request with
  | addField record asked =>
      obtain ⟨field, rfl, -, -, hread⟩ := toChange_addField hchange
      exact List.forall_mem_singleton.mpr ⟨asked.type, hread⟩
  | addType asked =>
      obtain ⟨type, htype, hchange⟩ := bind_eq_ok.mp hchange
      obtain ⟨-, -, hchange⟩ := bind_eq_ok.mp hchange
      obtain rfl := Except.ok.inj hchange
      obtain ⟨-, -, htype⟩ := bind_eq_ok.mp htype
      obtain ⟨body, hbody, htype⟩ := bind_eq_ok.mp htype
      obtain ⟨-, -, htype⟩ := bind_eq_ok.mp htype
      obtain rfl := Except.ok.inj htype
      exact TypeRequest.toBody_types hbody asked.name asked.doc
  | addImport path localName =>
      obtain ⟨rfl, -⟩ := toChange_addImport hchange
      exact List.forall_mem_nil _

theorem isIdentifier_of_required {request : Request} {change : Change} (hchange : request.toChange = .ok change) :
    ∀ package ∈ requiredPackages change.types, isIdentifier package := by
  intro package hpackage
  obtain ⟨type, htype, hmem⟩ := List.mem_flatMap.mp (mem_requiredPackages.mp hpackage)
  obtain ⟨text, hread⟩ := Request.toChange_types hchange type htype
  exact (TypeExpr.read_eq_ok.mp hread).mentions package (TypeExpr.mem_packages.mp hmem)

/-! ## Imports without a local name -/

/-- An import of a package by its name. -/
def ImportSpec.plain (package : Text) : ImportSpec :=
  ⟨none, package, renderImport package none⟩

theorem ImportSpec.namespaceName_plain {package : Text} (hpackage : isIdentifier package) :
    (plain package).namespaceName = package := by
  have hslash : '/' ∉ package := not_mem_of_isIdentifier hpackage (by decide) (by decide)
  simp [plain, namespaceName, Text.splitAt_of_not_mem hslash]

namespace SourceFile

variable {file next edited : SourceFile} {package : Text}

theorem provider?_isSome : (file.provider? package).isSome ↔ ∃ spec ∈ file.imports, spec.namespaceName = package := by
  rw [provider?, List.find?_isSome]
  simp

theorem provider?_mono (hkept : file.imports.Sublist edited.imports) (hprovided : (file.provider? package).isSome) :
    (edited.provider? package).isSome := by
  rw [provider?_isSome] at hprovided ⊢
  obtain ⟨spec, hspec, hname⟩ := hprovided
  exact ⟨spec, hkept.subset hspec, hname⟩

theorem plain_of_appendImport (hread : file.IsRead) (hpackage : isIdentifier package)
    (happend : file.appendImport package none = .ok next) :
    file.imports.Sublist next.imports ∧ next.imports.Perm (file.imports ++ [.plain package]) ∧
      ∀ other, (next.provider? other).isSome ↔ (file.provider? other).isSome ∨ other = package := by
  have hchars : ∀ c ∈ package, c ≠ '\x22' ∧ c ≠ '\\' ∧ c ≠ '\n' := by
    intro c hc
    refine ⟨?_, ?_, ?_⟩
    all_goals
      rintro rfl
      exact not_mem_of_isIdentifier hpackage (by decide) (by decide) hc
  obtain ⟨before, after, hfile, hnext⟩ := imports_of_appendImport hread hchars happend
  have hplain : next.imports = before ++ .plain package :: after := hnext
  refine ⟨?_, ?_, fun other => ?_⟩
  · rw [hfile, hplain]
    exact (List.sublist_cons_self _ _).append_left _
  · rw [hfile, hplain, List.append_assoc]
    exact (List.perm_append_singleton _ _).symm.append_left _
  · rw [provider?_isSome, provider?_isSome, hfile, hplain]
    simp only [List.mem_append, List.mem_cons]
    constructor
    · rintro ⟨spec, hspec | rfl | hspec, rfl⟩
      · exact .inl ⟨spec, .inl hspec, rfl⟩
      · exact .inr (ImportSpec.namespaceName_plain hpackage)
      · exact .inl ⟨spec, .inr hspec, rfl⟩
    · rintro (⟨spec, hspec | hspec, hname⟩ | rfl)
      · exact ⟨spec, .inl hspec, hname⟩
      · exact ⟨spec, .inr (.inr hspec), hname⟩
      · exact ⟨_, .inr (.inl rfl), ImportSpec.namespaceName_plain hpackage⟩

/-- The packages that no import of the file provides. -/
def missing (file : SourceFile) (packages : List Text) : List Text :=
  packages.filter fun package => (file.provider? package).isNone

/-- Packages that are ensured are all provided, by imports of those that were missing. -/
theorem imports_of_ensureImports {packages : List Text} (hread : file.IsRead) (hnodup : packages.Nodup)
    (hpackages : ∀ package ∈ packages, isIdentifier package)
    (hensure : file.ensureImports packages = ⟨edited, .ok ()⟩) :
    (∀ package ∈ packages, (edited.provider? package).isSome) ∧ file.imports.Sublist edited.imports ∧
      edited.imports.Perm (file.imports ++ (file.missing packages).map .plain) := by
  induction packages generalizing file with
  | nil =>
      obtain rfl := (Attempt.mk.inj hensure).1
      exact ⟨List.forall_mem_nil _, .refl _, by simp [missing]⟩
  | cons package others ih =>
      obtain ⟨hfresh, hnodup⟩ := List.nodup_cons.mp hnodup
      obtain ⟨hpackage, hothers⟩ := List.forall_mem_cons.mp hpackages
      unfold ensureImports at hensure
      split at hensure
      · rename_i hprovided
        obtain ⟨hall, hkept, hperm⟩ := ih hread hnodup hothers hensure
        have hmissing : file.missing (package :: others) = file.missing others :=
          List.filter_cons_of_neg (by simp [Option.isSome_iff_ne_none.mp hprovided])
        exact ⟨List.forall_mem_cons.mpr ⟨provider?_mono hkept hprovided, hall⟩, hkept, hmissing ▸ hperm⟩
      · rename_i hprovided
        split at hensure
        · rename_i next happend
          obtain ⟨hkept, hplain, hprovides⟩ := plain_of_appendImport hread hpackage happend
          obtain ⟨hall, hkept', hperm⟩ := ih (appendImport_types hread happend).1 hnodup hothers hensure
          -- The package is none of the others, so that these are missing as before.
          have hsame : next.missing others = file.missing others := by
            apply List.filter_congr
            intro other hother
            have hne : other ≠ package := fun heq => hfresh (heq ▸ hother)
            have hiff : (next.provider? other).isSome ↔ (file.provider? other).isSome := by
              rw [hprovides, or_iff_left hne]
            rw [← Option.not_isSome, ← Option.not_isSome, Bool.eq_iff_iff.mpr hiff]
          have hmissing : file.missing (package :: others) = package :: file.missing others :=
            List.filter_cons_of_pos (by simpa using hprovided)
          have hfirst := provider?_mono hkept' ((hprovides package).mpr (.inr rfl))
          refine ⟨List.forall_mem_cons.mpr ⟨hfirst, hall⟩, hkept.trans hkept', ?_⟩
          calc List.Perm edited.imports (next.imports ++ (file.missing others).map .plain) := hsame ▸ hperm
            List.Perm _ (file.imports ++ [.plain package] ++ (file.missing others).map .plain) := hplain.append_right _
            _ = file.imports ++ (file.missing (package :: others)).map .plain := by simp [hmissing]
        · cases hensure

/-! ## Edits that write no imports -/

theorem imports_of_not_isImport {declaration : Declaration} (hkind : ¬ declaration.isImport) :
    declaration.imports = [] := by
  unfold Declaration.imports
  split
  · rename_i heq
    exact absurd (by rw [Declaration.isImport, heq]) hkind
  · rfl

theorem imports_of_appendField {location : TypeLocation} {field : NewField} (hread : file.IsRead)
    (happend : file.appendField location field = .ok next) : next.IsRead ∧ next.imports = file.imports := by
  obtain ⟨earlier, old, later, before, spec, others, record, new, hfile, -, hspecs, hbody, hparse, rfl⟩ :=
    appendField_cases happend
  have hold : ¬ old.isImport := @not_isImport_of_mem old spec (by simp [hspecs])
  have hnew := ((hread old (by simp [hfile])).field_longer hspecs hbody file.isLineEnding_lineEnding hparse).1
  refine ⟨isRead_split hread hfile (Declaration.isRead_of_parse hparse).1, ?_⟩
  have himports := @imports_split file earlier later old
  rw [← hfile] at himports
  rw [imports_split, himports, imports_of_not_isImport hold, imports_of_not_isImport hnew]

theorem imports_of_insertType {index position : Nat} {type : NewType} (hread : file.IsRead)
    (hinsert : file.insertType index type = .ok (next, position)) : next.IsRead ∧ next.imports = file.imports := by
  obtain ⟨new, hparse, rfl⟩ := insertType_cases hinsert
  have hnew := not_isImport_of_newType file.isLineEnding_lineEnding hparse
  refine ⟨isRead_insert index hread (Declaration.isRead_of_parse hparse).1, ?_⟩
  rw [insert, imports_split, imports_of_not_isImport hnew, List.nil_append, ← List.flatMap_append,
    List.take_append_drop, imports]

end SourceFile

namespace Change

open SourceFile

variable {file edited : SourceFile} {change : Change}

theorem ensureImports_of_apply (hread : file.IsRead) (happly : change.apply file = ⟨edited, .ok .applied⟩)
    (hwrites : ∀ path localName, change ≠ .addImport path localName) :
    ∃ next : SourceFile, next.IsRead ∧ next.imports = file.imports ∧
      next.ensureImports (requiredPackages change.types) = ⟨edited, .ok ()⟩ := by
  obtain ⟨-, -, houtcome⟩ | ⟨-, -, next, hedits, hensured⟩ := apply_eq_ok happly
  · cases houtcome
  · refine ⟨next, ?_⟩
    cases hedits with
    | field _ happend =>
        obtain ⟨hnext, himports⟩ := imports_of_appendField hread happend
        exact ⟨hnext, himports, hensured⟩
    | type hinsert =>
        obtain ⟨hnext, himports⟩ := imports_of_insertType hread hinsert
        exact ⟨hnext, himports, hensured⟩
    | imports => exact absurd rfl (hwrites _ _)

/-- A field or a type that was asked for and has been added has an import for every package that its types name. The
imports of the file are all there in their order, and further ones only for the packages that no import provided. -/
theorem imports_of_apply {text : Text} {request : Request} (hparse : SourceFile.parse text = .ok file)
    (hchange : request.toChange = .ok change) (hwrites : ∀ path localName, change ≠ .addImport path localName)
    (happly : change.apply file = ⟨edited, .ok .applied⟩) :
    (∀ type ∈ change.types, ∀ package ∈ type.packages, (edited.provider? package).isSome) ∧
      file.imports.Sublist edited.imports ∧
      edited.imports.length = file.imports.length +
        ((change.types.flatMap TypeExpr.packages).toFinset.filter fun package =>
          (file.provider? package).isNone).card ∧
      edited.imports.Perm (file.imports ++ (file.missing (requiredPackages change.types)).map .plain) := by
  obtain ⟨next, hnext, himports, hensure⟩ := ensureImports_of_apply (isRead_of_parse hparse) happly hwrites
  have hnodup := nodup_requiredPackages change.types
  obtain ⟨hall, hkept, hperm⟩ :=
    imports_of_ensureImports hnext hnodup (isIdentifier_of_required hchange) hensure
  have hmissing (packages : List Text) : next.missing packages = file.missing packages := by
    simp only [missing, provider?, himports]
  rw [himports, hmissing] at hperm
  have hcount : (change.types.flatMap TypeExpr.packages).toFinset.filter (fun package =>
      (file.provider? package).isNone) = (file.missing (requiredPackages change.types)).toFinset := by
    ext package
    simp [missing, mem_requiredPackages]
  refine ⟨?_, himports ▸ hkept, ?_, hperm⟩
  · intro type htype package hpackage
    exact hall package (mem_requiredPackages.mpr (List.mem_flatMap.mpr ⟨type, htype, hpackage⟩))
  · have hfresh : (file.missing (requiredPackages change.types)).Nodup := hnodup.filter _
    rw [hcount, List.toFinset_card_of_nodup hfresh, hperm.length_eq]
    simp

-- The file imports `json` by the end of a path and `t` by a local name. The type names `time` in three fields.
theorem imports_of_apply_time :
    let text := "package a\n\nimport \"encoding/json\"\nimport t \"time\"\n".toList
    let request : TypeRequest :=
      ⟨['T'], none, [⟨['U'], "map[time.Month]*json.Decoder".toList, none, none⟩,
        ⟨['V'], "[]map[t.Month][]time.Time".toList, none, none⟩, ⟨['W'], "os.File".toList, none, none⟩,
        ⟨['X'], "time.Time".toList, none, none⟩], none, false, .last⟩
    ∃ file change edited, SourceFile.parse text = .ok file ∧ (Request.addType request).toChange = .ok change ∧
      change.apply file = ⟨edited, .ok .applied⟩ ∧ file.imports.Sublist edited.imports ∧
      edited.imports.length = file.imports.length + 2 ∧
      ∀ type ∈ change.types, ∀ package ∈ type.packages, (edited.provider? package).isSome := by
  repeat rw [String.toList_ofList]
  intro text request
  let time : TypeExpr := .qualified "time".toList "Time".toList
  let type : NewType := ⟨['T'], none, .record [
    ⟨['U'], .mapping (.qualified "time".toList "Month".toList) (.pointer (.qualified "json".toList "Decoder".toList)),
      none, none⟩,
    ⟨['V'], .slice (.mapping (.qualified ['t'] "Month".toList) (.slice time)), none, none⟩,
    ⟨['W'], .qualified "os".toList "File".toList, none, none⟩, ⟨['X'], time, none, none⟩]⟩
  have hrequest : (Request.addType request).toChange = .ok (.addType type .last) :=
    eq_ok_of_toOption (by decide +kernel)
  have hrun : (SourceFile.parse text).toOption.any fun file =>
      decide ((apply (.addType type .last) file).result.toOption = some .applied) &&
        decide ((((types (.addType type .last)).flatMap TypeExpr.packages).toFinset.filter fun package =>
          (file.provider? package).isNone).card = 2) := by
    decide +kernel
  obtain ⟨file, hfile, hrun⟩ := (Option.any_eq_true ..).mp hrun
  simp only [Bool.and_eq_true, decide_eq_true_eq] at hrun
  obtain ⟨hresult, hcard⟩ := hrun
  have hparse := eq_ok_of_toOption hfile
  have happly : apply (.addType type .last) file = ⟨(apply (.addType type .last) file).state, .ok .applied⟩ := by
    rw [← eq_ok_of_toOption hresult]
  obtain ⟨hall, hkept, hlength, -⟩ := imports_of_apply hparse hrequest (by rintro _ _ ⟨⟩) happly
  rw [hcard] at hlength
  exact ⟨file, _, _, hparse, hrequest, happly, hkept, hlength, hall⟩

end Change

end GoGraft
