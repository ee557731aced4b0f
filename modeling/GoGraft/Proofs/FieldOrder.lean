import GoGraft.Proofs.KeptEndings

/-!
# Fields that are added in another order

A field is written with the line ending of the whole file into the text of one declaration. A field that was added to
another declaration before it leaves both as they were, the line ending because no edit changes what the file shows. So
two fields in different declarations can be added in either order: both succeed or neither does, and the file and its
tables come out the same.
-/

namespace GoGraft

open Text

namespace SourceFile

variable {file edited middle final : SourceFile} {first second : TypeLocation} {field other : NewField}

/-- The text of a declaration with a further field in one of its struct types. -/
def fieldText (declaration : Declaration) (record : Record) (field : NewField) (newline : Text) : Text :=
  spliceBefore declaration.text record.close record.indent newline fun indent => field.render indent newline

theorem appendField_eq_ok_iff {location : TypeLocation} : file.appendField location field = .ok edited ↔
    ∃ old spec record new, file.declarations[location.declaration]? = some old ∧
      old.typeSpecs[location.spec]? = some spec ∧ spec.body = .record record ∧
      Declaration.parse (fieldText old record field file.lineEnding) = .ok new ∧
      edited = file.replace location.declaration new := by
  constructor
  · intro happend
    obtain ⟨earlier, old, later, before, spec, others, record, new, hsplit, rfl, hspecs, hbody, hnew, rfl⟩ :=
      appendField_cases happend
    refine ⟨old, spec, record, new, by simp [hsplit], by simp [hspecs], hbody, hnew, ?_⟩
    simp [replace, hsplit]
  · rintro ⟨old, spec, record, new, hold, hspec, hbody, hnew, rfl⟩
    have hread : readEdited (fieldText old record field file.lineEnding) = .ok new := readEdited_eq_ok.mpr hnew
    rw [fieldText] at hread
    simp only [appendField, typeSpec?, hold, Option.bind_eq_bind, Option.bind_some, hspec, hbody, hread]
    rfl

theorem replace_comm {i j : Nat} (hne : i ≠ j) (left right : Declaration) :
    (file.replace i left).replace j right = (file.replace j right).replace i left := by
  simp only [replace]
  rw [List.set_comm _ _ hne]

theorem getElem?_replace_ne {i j : Nat} (hne : i ≠ j) (declaration : Declaration) :
    (file.replace i declaration).declarations[j]? = file.declarations[j]? :=
  List.getElem?_set_ne hne

/-- Where the line ending stays, a declaration that was replaced elsewhere makes no difference to a field. -/
theorem appendField_replace {declaration : Declaration} {index : Nat} (hne : index ≠ second.declaration)
    (hending : (file.replace index declaration).lineEnding = file.lineEnding) :
    (file.replace index declaration).appendField second other = .ok edited ↔
      ∃ new, file.appendField second other = .ok (file.replace second.declaration new) ∧
        edited = (file.replace second.declaration new).replace index declaration := by
  rw [appendField_eq_ok_iff, hending, getElem?_replace_ne hne]
  constructor
  · rintro ⟨old, spec, record, new, hold, hspec, hbody, hnew, rfl⟩
    exact ⟨new, appendField_eq_ok_iff.mpr ⟨old, spec, record, new, hold, hspec, hbody, hnew, rfl⟩,
      replace_comm hne _ _⟩
  · rintro ⟨_, happend, rfl⟩
    obtain ⟨old, spec, record, new, hold, hspec, hbody, hnew, hreplace⟩ := appendField_eq_ok_iff.mp happend
    refine ⟨old, spec, record, new, hold, hspec, hbody, hnew, ?_⟩
    rw [hreplace, replace_comm hne]

/-- Fields of different declarations can be added in the other order too. -/
theorem appendField_comm (hread : file.IsRead) (hreturns : hasPairedReturns file.render)
    (hne : first.declaration ≠ second.declaration) (hfirst : file.appendField first field = .ok middle)
    (hsecond : middle.appendField second other = .ok final) :
    ∃ alone, file.appendField second other = .ok alone ∧ alone.appendField first field = .ok final := by
  have hmiddle := lineEnding_of_appendField hread hreturns hfirst
  obtain ⟨_, _, _, new, -, -, -, -, rfl⟩ := appendField_eq_ok_iff.mp hfirst
  obtain ⟨added, halone, rfl⟩ := (appendField_replace hne hmiddle).mp hsecond
  refine ⟨_, halone, ?_⟩
  rw [appendField_replace hne.symm (lineEnding_of_appendField hread hreturns halone)]
  exact ⟨new, hfirst, replace_comm hne.symm _ _⟩

end SourceFile

namespace IndexedFile

theorem appendField_eq_ok_iff {indexed edited : IndexedFile} {location : TypeLocation} {field : NewField} :
    indexed.appendField location field = ⟨edited, .ok ()⟩ ↔
      ∃ file, indexed.file.appendField location field = .ok file ∧ edited = ⟨file, file.typeTable, file.nameTable⟩ := by
  rw [appendField, adopt_eq_ok]
  simp only [map_eq_ok, Prod.mk.injEq, and_true, exists_eq_right]

theorem appendField_comm {indexed middle final : IndexedFile} {first second : TypeLocation} {field other : NewField}
    (hread : indexed.file.IsRead) (hreturns : hasPairedReturns indexed.file.render)
    (hne : first.declaration ≠ second.declaration) (hfirst : indexed.appendField first field = ⟨middle, .ok ()⟩)
    (hsecond : middle.appendField second other = ⟨final, .ok ()⟩) :
    ∃ alone, indexed.appendField second other = ⟨alone, .ok ()⟩ ∧ alone.appendField first field = ⟨final, .ok ()⟩ := by
  obtain ⟨_, hone, rfl⟩ := appendField_eq_ok_iff.mp hfirst
  obtain ⟨_, hboth, rfl⟩ := appendField_eq_ok_iff.mp hsecond
  obtain ⟨alone, halone, hagain⟩ := SourceFile.appendField_comm hread hreturns hne hone hboth
  exact ⟨_, appendField_eq_ok_iff.mpr ⟨alone, halone, rfl⟩, appendField_eq_ok_iff.mpr ⟨_, hagain, rfl⟩⟩

/-- After any run of edits, two fields of different declarations can be added one after the other exactly if they can be
added in the other order, and then both orders lead to the same file with the same tables. -/
theorem appendField_either_order {text : Text} {start : IndexedFile} (hparse : parse text = .ok start)
    (edits : List Edit) (hreturns : hasPairedReturns (start.run edits).file.render) {first second : TypeLocation}
    (hne : first.declaration ≠ second.declaration) (field other : NewField) (final : IndexedFile) :
    (∃ middle, (start.run edits).appendField first field = ⟨middle, .ok ()⟩ ∧
        middle.appendField second other = ⟨final, .ok ()⟩) ↔
      ∃ middle, (start.run edits).appendField second other = ⟨middle, .ok ()⟩ ∧
        middle.appendField first field = ⟨final, .ok ()⟩ := by
  have hread := (isSound_of_run hparse edits).read
  constructor
  · rintro ⟨middle, hfirst, hsecond⟩
    exact appendField_comm hread hreturns hne hfirst hsecond
  · rintro ⟨middle, hsecond, hfirst⟩
    exact appendField_comm hread hreturns hne.symm hsecond hfirst

-- The edit before the two fields finds no struct type, so that the file has one newline, at its end. Each of the fields
-- puts newlines before it.
theorem appendField_either_order_one_line :
    let text := "package a; type A struct\x7b\x7d; type (B int; C struct\x7b X int \x7d)\r\n".toList
    let edits : List Edit := [.appendField ⟨1, 0⟩ ⟨['Z'], .verbatim "int".toList, none, none⟩]
    let field : NewField := ⟨['F'], .verbatim "int".toList, some "f".toList, some "f\ng".toList⟩
    let other : NewField := ⟨['G'], .slice (.verbatim "A".toList), none, none⟩
    ∃ start middle final, parse text = .ok start ∧ hasPairedReturns (start.run edits).file.render ∧
      (start.run edits).appendField ⟨0, 0⟩ field = ⟨middle, .ok ()⟩ ∧ middle.appendField ⟨1, 1⟩ other = ⟨final, .ok ()⟩ ∧
      ∃ alone, (start.run edits).appendField ⟨1, 1⟩ other = ⟨alone, .ok ()⟩ ∧
        alone.appendField ⟨0, 0⟩ field = ⟨final, .ok ()⟩ := by
  repeat rw [String.toList_ofList]
  intro text edits field other
  have hrun : (parse text).toOption.any fun start => hasPairedReturns (start.run edits).file.render &&
      ((start.run edits).appendField ⟨0, 0⟩ field).toOption.any fun middle =>
        (middle.1.appendField ⟨1, 1⟩ other).toOption.isSome := by
    decide
  obtain ⟨start, hstart, hrun⟩ := (Option.any_eq_true ..).mp hrun
  obtain ⟨hreturns, hrun⟩ := Bool.and_eq_true_iff.mp hrun
  obtain ⟨⟨middle, ⟨⟩⟩, hmiddle, hsome⟩ := (Option.any_eq_true ..).mp hrun
  obtain ⟨⟨final, ⟨⟩⟩, hfinal⟩ := Option.isSome_iff_exists.mp hsome
  have hparse := eq_ok_of_toOption hstart
  have hfirst := Attempt.eq_of_toOption hmiddle
  have hsecond := Attempt.eq_of_toOption hfinal
  exact ⟨start, middle, final, hparse, hreturns, hfirst, hsecond,
    (appendField_either_order hparse edits hreturns (by decide) field other final).mp ⟨middle, hfirst, hsecond⟩⟩

end IndexedFile

end GoGraft
