import GoGraft.Proofs.Departures

/-!
# The check of a file is exact

What a valid declaration is can be said without the check: each part that has a name has one, each type has a name at
every leaf, and each import path stands between its quotes. The check walks through the declarations with one flag, which
says whether an import declaration would be late by now. It reports a fault for every part that is not as it should be
and for none that is, and it reports the faults in the order of the declarations.
-/

namespace GoGraft

/-! ## Valid parts -/

/-- The names at the leaves of a type expression. -/
def TypeExpr.leaves : TypeExpr → List Text
  | pointer target => target.leaves
  | slice element => element.leaves
  | mapping key value => key.leaves ++ value.leaves
  | qualified package name => [package, name]
  | verbatim text => [text]

/-- No leaf of the type expression is blank. -/
def TypeExpr.IsValid (type : TypeExpr) : Prop :=
  ∀ name ∈ type.leaves, ¬ name.isBlank

/-- At least two bytes, of which the first and the last are the same quote. -/
def IsQuoted (literal : Text) : Prop :=
  2 ≤ literal.byteSize ∧
    ∃ quote, (quote = '\x22' ∨ quote = '\x60') ∧ literal.head? = some quote ∧ literal.getLast? = some quote

structure ImportSpec.IsValid (spec : ImportSpec) : Prop where
  path : spec.path ≠ []
  literal : IsQuoted spec.literal

structure Field.IsValid (field : Field) : Prop where
  name : ¬ field.name.isBlank
  type : field.type.IsValid

def TypeBody.IsValid : TypeBody → Prop
  | .record inner => ∀ field ∈ inner.fields, field.IsValid
  | .expr type => type.IsValid

structure TypeSpec.IsValid (spec : TypeSpec) : Prop where
  name : ¬ spec.name.isBlank
  body : spec.body.IsValid

def DeclarationKind.IsValid : DeclarationKind → Prop
  | .imports specs _ => ∀ spec ∈ specs, spec.IsValid
  | .types specs => ∀ spec ∈ specs, spec.IsValid
  | .function name => ¬ name.isBlank
  | .values names => ∀ name ∈ names, ¬ name.isBlank

theorem TypeExpr.isWellFormed_iff (type : TypeExpr) : type.isWellFormed ↔ type.IsValid := by
  unfold IsValid
  induction type with
  | pointer target ih => exact ih
  | slice element ih => exact ih
  | mapping key value ihKey ihValue =>
      rw [isWellFormed, Bool.and_eq_true, ihKey, ihValue, leaves, List.forall_mem_append]
  | qualified package name => simp [isWellFormed, leaves]
  | verbatim text => simp [isWellFormed, leaves]

/-- A quote has one byte, so that two bytes are two characters. -/
theorem isDelimited_iff (literal : Text) : isDelimited literal ↔ IsQuoted literal := by
  unfold isDelimited IsQuoted
  cases literal with
  | nil => simp
  | cons first rest =>
      cases hlast : (first :: rest).getLast? with
      | none => simp at hlast
      | some last =>
          have hsize : first = '\x22' ∨ first = '\x60' →
              (2 ≤ (first :: rest).length ↔ 2 ≤ Text.byteSize (first :: rest)) := by
            intro hquote
            have hfirst : first.utf8Size = 1 := by obtain rfl | rfl := hquote <;> rfl
            rw [Text.byteSize_cons, hfirst, List.length_cons]
            cases rest with
            | nil => rfl
            | cons second others =>
                have hsecond := second.utf8Size_pos
                rw [Text.byteSize_cons, List.length_cons]
                omega
          simp only [List.head?_cons, Bool.and_eq_true, decide_eq_true_eq, Bool.or_eq_true, Option.some.injEq]
          constructor
          · rintro ⟨hlength, rfl, hquote⟩
            exact ⟨(hsize hquote).mp hlength, first, hquote, rfl, rfl⟩
          · rintro ⟨hbytes, quote, hquote, rfl, rfl⟩
            exact ⟨(hsize hquote).mpr hbytes, rfl, hquote⟩

/-! ## Faults -/

theorem faultIf_eq_nil {condition : Bool} {fault : Fault} : faultIf condition fault = [] ↔ ¬ condition := by
  cases condition <;> simp [faultIf]

theorem ImportSpec.faults_eq_nil (spec : ImportSpec) : spec.faults = [] ↔ spec.IsValid := by
  rw [faults, List.append_eq_nil_iff, faultIf_eq_nil, faultIf_eq_nil, Bool.not_eq_true', Bool.not_eq_false,
    isDelimited_iff, List.isEmpty_iff]
  constructor
  · rintro ⟨hpath, hliteral⟩
    exact ⟨hpath, hliteral⟩
  · intro hvalid
    exact ⟨hvalid.path, hvalid.literal⟩

theorem Field.faults_eq_nil (type : Text) (field : Field) : field.faults type = [] ↔ field.IsValid := by
  rw [faults, List.append_eq_nil_iff, faultIf_eq_nil, faultIf_eq_nil, Bool.not_eq_true', Bool.not_eq_false,
    TypeExpr.isWellFormed_iff]
  constructor
  · rintro ⟨hname, htype⟩
    exact ⟨hname, htype⟩
  · intro hvalid
    exact ⟨hvalid.name, hvalid.type⟩

theorem TypeSpec.faults_eq_nil (spec : TypeSpec) : spec.faults = [] ↔ spec.IsValid := by
  obtain ⟨name, isAlias, body⟩ := spec
  rw [faults, List.append_eq_nil_iff, faultIf_eq_nil]
  have hvalid : TypeSpec.IsValid ⟨name, isAlias, body⟩ ↔ ¬ name.isBlank ∧ body.IsValid := by
    constructor
    · intro hvalid
      exact ⟨hvalid.name, hvalid.body⟩
    · rintro ⟨hname, hbody⟩
      exact ⟨hname, hbody⟩
  rw [hvalid]
  cases body with
  | record inner => simp [TypeBody.IsValid, Field.faults_eq_nil]
  | expr type => simp [TypeBody.IsValid, faultIf_eq_nil, TypeExpr.isWellFormed_iff]

theorem Declaration.faults_eq_nil (declaration : Declaration) (late : Bool) :
    declaration.faults late = [] ↔ ¬ (late ∧ declaration.isImport) ∧ declaration.kind.IsValid := by
  obtain ⟨text, kind⟩ := declaration
  cases kind with
  | imports specs layout =>
      simp only [faults, List.append_eq_nil_iff, faultIf_eq_nil, List.flatMap_eq_nil_iff, ImportSpec.faults_eq_nil]
      simp [isImport, DeclarationKind.IsValid]
  | types specs =>
      simp only [faults, List.flatMap_eq_nil_iff, TypeSpec.faults_eq_nil]
      simp [isImport, DeclarationKind.IsValid]
  | function name => simp [faults, faultIf_eq_nil, names, isImport, DeclarationKind.IsValid]
  | values names => simp [faults, faultIf_eq_nil, Declaration.names, isImport, DeclarationKind.IsValid]

namespace SourceFile

/-! ## The walk through the declarations -/

/-- What is reported of a declaration are its faults, and it is late where it stands behind one that is no import. -/
theorem mem_checkFrom {declarations : List Declaration} {index : Nat} {late : Bool} {violation : Violation} :
    violation ∈ checkFrom index late declarations ↔
      ∃ earlier declaration others, declarations = earlier ++ declaration :: others ∧
        violation.declaration = index + earlier.length ∧
        violation.fault ∈ declaration.faults (late || earlier.any (!·.isImport)) := by
  induction declarations generalizing index late with
  | nil => simp [checkFrom]
  | cons first rest ih =>
      rw [checkFrom, List.mem_append, ih]
      constructor
      · rintro (hfirst | ⟨earlier, declaration, others, rfl, hindex, hfault⟩)
        · obtain ⟨fault, hfault, rfl⟩ := List.mem_map.mp hfirst
          exact ⟨[], first, rest, rfl, rfl, by simpa using hfault⟩
        · refine ⟨first :: earlier, declaration, others, rfl, ?_, ?_⟩
          · rw [hindex, List.length_cons]
            omega
          · rwa [List.any_cons, ← Bool.or_assoc]
      · rintro ⟨earlier, declaration, others, hsplit, hindex, hfault⟩
        cases earlier with
        | nil =>
            obtain ⟨rfl, -⟩ := List.cons.inj hsplit
            have hindex : violation.declaration = index := hindex
            refine .inl (List.mem_map.mpr ⟨violation.fault, by simpa using hfault, ?_⟩)
            rw [← hindex]
        | cons _ earlier =>
            obtain ⟨rfl, rfl⟩ := List.cons.inj hsplit
            refine .inr ⟨earlier, declaration, others, rfl, ?_, ?_⟩
            · rw [hindex, List.length_cons]
              omega
            · rwa [List.any_cons, ← Bool.or_assoc] at hfault

theorem pairwise_checkFrom (declarations : List Declaration) (index : Nat) (late : Bool) :
    ((checkFrom index late declarations).map Violation.declaration).Pairwise (· ≤ ·) := by
  induction declarations generalizing index late with
  | nil => exact .nil
  | cons first rest ih =>
      rw [checkFrom, List.map_append, List.map_map, List.pairwise_append]
      refine ⟨?_, ih _ _, ?_⟩
      · exact List.pairwise_map.mpr (List.pairwise_of_forall fun _ _ => Nat.le_refl index)
      · intro earlier hearlier later hlater
        obtain ⟨_, -, rfl⟩ := List.mem_map.mp hearlier
        obtain ⟨violation, hviolation, rfl⟩ := List.mem_map.mp hlater
        obtain ⟨_, _, _, -, hindex, -⟩ := mem_checkFrom.mp hviolation
        rw [hindex]
        exact Nat.le_trans (Nat.le_succ index) (Nat.le_add_right _ _)

variable {file : SourceFile}

theorem any_not_isImport_iff {earlier others : List Declaration} {declaration : Declaration}
    (hsplit : file.declarations = earlier ++ declaration :: others) (himport : declaration.isImport) :
    earlier.any (!·.isImport) ↔ file.leadingImports ≤ earlier.length := by
  rw [leadingImports, hsplit]
  by_cases hall : ∀ other ∈ earlier, other.isImport
  · rw [List.takeWhile_append_of_pos hall, List.takeWhile_cons_of_pos himport]
    refine iff_of_false (by simpa using hall) ?_
    simp only [List.length_append, List.length_cons]
    omega
  · have hprefix := List.takeWhile_prefix Declaration.isImport (l := earlier)
    rw [List.takeWhile_append, if_neg]
    · exact iff_of_true (by simpa using hall) hprefix.length_le
    · intro hlength
      apply hall
      rw [← hprefix.eq_of_length hlength]
      exact List.all_eq_true.mp List.all_takeWhile

theorem importsLead_iff_split : file.ImportsLead ↔
    ∀ earlier declaration others, file.declarations = earlier ++ declaration :: others →
      ¬ (earlier.any (!·.isImport) ∧ declaration.isImport) := by
  rw [importsLead_iff]
  constructor
  · intro hnone earlier declaration others hsplit hlate
    have hmem : ⟨earlier.length, .importAfterDeclaration⟩ ∈ file.check :=
      mem_checkFrom.mpr ⟨earlier, declaration, others, hsplit, by simp, by
        rwa [Bool.false_or, mem_faults_importAfterDeclaration]⟩
    exact hnone _ hmem rfl
  · intro hnone violation hmem hfault
    obtain ⟨earlier, declaration, others, hsplit, -, hmem⟩ := mem_checkFrom.mp hmem
    rw [hfault, Bool.false_or, mem_faults_importAfterDeclaration] at hmem
    exact hnone earlier declaration others hsplit hmem

theorem check_eq_nil : file.check = [] ↔
    ∀ earlier declaration others, file.declarations = earlier ++ declaration :: others →
      declaration.faults (earlier.any (!·.isImport)) = [] := by
  constructor
  · intro hnone earlier declaration others hsplit
    apply List.eq_nil_iff_forall_not_mem.mpr
    intro fault hfault
    have hmem : ⟨earlier.length, fault⟩ ∈ file.check :=
      mem_checkFrom.mpr ⟨earlier, declaration, others, hsplit, by simp, by simpa using hfault⟩
    simp [hnone] at hmem
  · intro hnone
    apply List.eq_nil_iff_forall_not_mem.mpr
    intro violation hmem
    obtain ⟨earlier, declaration, others, hsplit, -, hfault⟩ := mem_checkFrom.mp hmem
    simp [hnone earlier declaration others hsplit] at hfault

/-- An import declaration is reported as late exactly if it is none of the leading ones. -/
theorem mem_check_importAfterDeclaration {index : Nat} : ⟨index, .importAfterDeclaration⟩ ∈ file.check ↔
    ∃ declaration, file.declarations[index]? = some declaration ∧ declaration.isImport ∧
      file.leadingImports ≤ index := by
  constructor
  · intro hmem
    obtain ⟨earlier, declaration, others, hsplit, hindex, hfault⟩ := mem_checkFrom.mp hmem
    rw [Bool.false_or, mem_faults_importAfterDeclaration] at hfault
    obtain rfl : index = earlier.length := hindex.trans (Nat.zero_add _)
    exact ⟨declaration, by simp [hsplit], hfault.2, (any_not_isImport_iff hsplit hfault.2).mp hfault.1⟩
  · rintro ⟨declaration, hget, himport, hleading⟩
    obtain ⟨earlier, others, hsplit, rfl, -⟩ := replace_eq hget declaration
    refine mem_checkFrom.mpr ⟨earlier, declaration, others, hsplit, by simp, ?_⟩
    rw [Bool.false_or, mem_faults_importAfterDeclaration]
    exact ⟨(any_not_isImport_iff hsplit himport).mpr hleading, himport⟩

/-- The check finds nothing exactly in the files whose imports come first and whose declarations are valid. It reports
that an import declaration is late exactly if it is none of the leading ones, and what it reports comes in the order of
the declarations. -/
theorem check_exact (file : SourceFile) :
    (file.check = [] ↔ file.ImportsLead ∧ ∀ declaration ∈ file.declarations, declaration.kind.IsValid) ∧
      (∀ index, ⟨index, .importAfterDeclaration⟩ ∈ file.check ↔
        ∃ declaration, file.declarations[index]? = some declaration ∧ declaration.isImport ∧
          file.leadingImports ≤ index) ∧
      (file.check.map Violation.declaration).Pairwise (· ≤ ·) := by
  refine ⟨?_, fun _ => mem_check_importAfterDeclaration, pairwise_checkFrom _ _ _⟩
  simp only [check_eq_nil, importsLead_iff_split, Declaration.faults_eq_nil]
  constructor
  · intro hall
    refine ⟨fun earlier declaration others hsplit => (hall earlier declaration others hsplit).1, ?_⟩
    intro declaration hmem
    obtain ⟨earlier, others, hsplit⟩ := List.append_of_mem hmem
    exact (hall earlier declaration others hsplit).2
  · rintro ⟨hleads, hvalid⟩ earlier declaration others hsplit
    exact ⟨hleads earlier declaration others hsplit, hvalid declaration (by simp [hsplit])⟩

end SourceFile

end GoGraft
