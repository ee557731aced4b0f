import GoGraft.Proofs.EditRuns

/-!
# Where declarations go

A place that is named by an anchor is the anchor's own or the one behind it. It is then kept from being among the
leading imports, which never moves it: import declarations bind no names, so that no anchor is among them.
-/

namespace GoGraft

section Lists

variable {α : Type} {p : α → Bool} {l : List α} {a : α} {index : Nat}

theorem findIdx?_take_cons_drop (ha : p a = false) (hindex : index ≤ l.length) :
    (l.take index ++ a :: l.drop index).findIdx? p =
      (l.findIdx? p).map fun i => if i < index then i else i + 1 := by
  have hlength : (l.take index).length = index := by
    rw [List.length_take]
    omega
  have hsplit : l.findIdx? p =
      ((l.take index).findIdx? p).or (((l.drop index).findIdx? p).map (· + index)) := by
    conv => lhs; rw [← List.take_append_drop index l, List.findIdx?_append, hlength]
  rw [hsplit, List.findIdx?_append, List.findIdx?_cons, hlength, if_neg (by simp [ha]), Option.map_map]
  cases hfirst : (l.take index).findIdx? p with
  | some i =>
      have hi : i < index := by
        obtain ⟨hi, -⟩ := List.findIdx?_eq_some_iff_getElem.mp hfirst
        omega
      simp [hi]
  | none =>
      cases (l.drop index).findIdx? p with
      | none => rfl
      | some i =>
          simp only [Option.none_or, Option.map_some, Function.comp_apply]
          rw [if_neg (by omega)]
          congr 1
          omega

theorem takeWhile_take_cons_drop (ha : p a = false) (hindex : (l.takeWhile p).length ≤ index) :
    (l.take index ++ a :: l.drop index).takeWhile p = l.takeWhile p := by
  induction l generalizing index with
  | nil => simp [ha]
  | cons b l ih =>
      by_cases hb : p b
      · rw [List.takeWhile_cons_of_pos hb, List.length_cons] at hindex
        obtain ⟨index, rfl⟩ := Nat.exists_eq_add_of_le' (Nat.le_of_add_left_le hindex)
        have hrest := @ih index (by omega)
        rw [List.take_succ_cons, List.drop_succ_cons, List.cons_append, List.takeWhile_cons_of_pos hb,
          List.takeWhile_cons_of_pos hb, hrest]
      · rw [List.takeWhile_cons_of_neg hb]
        cases index with
        | zero => simp [ha]
        | succ index => simp [hb]

end Lists

namespace SourceFile

variable {file : SourceFile} {declaration : Declaration} {name : Text} {index position : Nat}

theorem leadingImports_le (file : SourceFile) : file.leadingImports ≤ file.declarations.length :=
  (List.takeWhile_prefix Declaration.isImport).length_le

theorem not_mem_names_of_isImport (himport : declaration.isImport) : name ∉ declaration.names := by
  obtain ⟨text, kind⟩ := declaration
  cases kind with
  | imports => exact List.not_mem_nil
  | types | function | values => cases himport

/-- No name is bound among the leading imports. -/
theorem leadingImports_le_position (hposition : file.positionOf? name = some position) :
    file.leadingImports ≤ position ∧ position < file.declarations.length := by
  rw [positionOf?_eq] at hposition
  obtain ⟨hlt, hname, -⟩ := List.findIdx?_eq_some_iff_getElem.mp hposition
  refine ⟨Nat.le_of_not_lt fun hbefore => ?_, hlt⟩
  have hlead : position < (file.declarations.takeWhile Declaration.isImport).length := hbefore
  have himport : file.declarations[position].isImport := by
    rw [← (List.takeWhile_prefix Declaration.isImport).getElem hlead]
    exact List.all_eq_true.mp List.all_takeWhile _ (List.getElem_mem hlead)
  exact not_mem_names_of_isImport himport (of_decide_eq_true hname)

theorem resolve_after (hposition : file.positionOf? name = some position) :
    file.resolve (.after name) = position + 1 := by
  have hlead := (leadingImports_le_position hposition).1
  simp only [resolve, hposition, Option.map_some, Option.getD_some]
  omega

theorem resolve_before (hposition : file.positionOf? name = some position) :
    file.resolve (.before name) = position := by
  have hlead := (leadingImports_le_position hposition).1
  simp only [resolve, hposition, Option.getD_some]
  omega

theorem resolve_of_unbound {placement : Placement}
    (hanchor : ∀ name ∈ placement.anchor, file.positionOf? name = none) :
    file.resolve placement = file.declarations.length := by
  have hlead := file.leadingImports_le
  cases placement with
  | last =>
      simp only [resolve]
      omega
  | after name | before name =>
      have hnone := hanchor name rfl
      simp only [resolve, hnone, Option.map_none, Option.getD_none]
      omega

theorem resolve_bounds (file : SourceFile) (placement : Placement) :
    file.leadingImports ≤ file.resolve placement ∧ file.resolve placement ≤ file.declarations.length := by
  have hlead := file.leadingImports_le
  refine ⟨Nat.le_max_right _ _, ?_⟩
  cases placement with
  | last =>
      simp only [resolve]
      omega
  | after name | before name =>
      cases hposition : file.positionOf? name with
      | none =>
          simp only [resolve, hposition, Option.map_none, Option.getD_none]
          omega
      | some position =>
          have hlt := (leadingImports_le_position hposition).2
          simp only [resolve, hposition, Option.map_some, Option.getD_some]
          omega

theorem leadingImports_insert (himport : ¬ declaration.isImport) (hindex : file.leadingImports ≤ index) :
    (file.insert index declaration).leadingImports = file.leadingImports := by
  rw [leadingImports, insert, takeWhile_take_cons_drop (Bool.eq_false_iff.mpr himport) hindex, leadingImports]

theorem positionOf?_insert (hname : name ∉ declaration.names) (hindex : index ≤ file.declarations.length) :
    (file.insert index declaration).positionOf? name =
      (file.positionOf? name).map fun position => if position < index then position else position + 1 := by
  rw [positionOf?_eq, positionOf?_eq]
  exact @findIdx?_take_cons_drop _ (fun other : Declaration => name ∈ other.names) _ _ _ (decide_eq_false hname) hindex

end SourceFile

namespace IndexedFile

/-- A placement is resolved behind the leading imports and not behind the end. With an anchor that is bound it is the place
of the first declaration that binds it, or the next one, and otherwise the end. A declaration that is inserted there is
behind as many leading imports as before, and moves the names that are bound from there on by one place. -/
theorem resolve_then_insert {indexed : IndexedFile} (hcurrent : indexed.IsCurrent) (placement : Placement) :
    (indexed.file.leadingImports ≤ indexed.file.resolve placement ∧
      indexed.file.resolve placement ≤ indexed.file.declarations.length) ∧
    (∀ name position, indexed.file.declarations.findIdx? (name ∈ ·.names) = some position →
      indexed.positionOf? name = some position ∧
      (placement = .after name → indexed.file.resolve placement = position + 1) ∧
      (placement = .before name → indexed.file.resolve placement = position)) ∧
    ((∀ name ∈ placement.anchor, ∀ declaration ∈ indexed.file.declarations, name ∉ declaration.names) →
      indexed.file.resolve placement = indexed.file.declarations.length) ∧
    ∀ declaration : Declaration, ¬ declaration.isImport →
      let inserted := reindex { indexed with file := indexed.file.insert (indexed.file.resolve placement) declaration }
      inserted.file.leadingImports = indexed.file.leadingImports ∧
      ∀ name position, indexed.positionOf? name = some position → name ∉ declaration.names →
        inserted.positionOf? name =
          some (if position < indexed.file.resolve placement then position else position + 1) := by
  obtain ⟨hlead, hend⟩ := indexed.file.resolve_bounds placement
  refine ⟨⟨hlead, hend⟩, ?_, ?_, ?_⟩
  · intro name position hfirst
    rw [← SourceFile.positionOf?_eq] at hfirst
    refine ⟨(hcurrent.positionOf?_eq name).trans hfirst, ?_, ?_⟩
    · rintro rfl
      exact SourceFile.resolve_after hfirst
    · rintro rfl
      exact SourceFile.resolve_before hfirst
  · intro hunbound
    apply SourceFile.resolve_of_unbound
    intro name hname
    rw [SourceFile.positionOf?_eq, List.findIdx?_eq_none_iff]
    intro declaration hmem
    exact decide_eq_false (hunbound name hname declaration hmem)
  · intro declaration himport inserted
    refine ⟨SourceFile.leadingImports_insert himport hlead, ?_⟩
    intro name position hposition hname
    rw [hcurrent.positionOf?_eq] at hposition
    have hmoved := SourceFile.positionOf?_insert hname hend
    rw [hposition, Option.map_some] at hmoved
    exact ((isCurrent_reindex _).positionOf?_eq name).trans hmoved

-- `x` and `y` are bound again behind the place, and the new declaration takes `A` over.
theorem resolve_then_insert_repeated :
    let text := "package a\n\nimport \"C\"\n\nimport \"fmt\"\n\nvar x, y = 1, 2\n\n".toList ++
      "type (\n\tA int\n\tx struct \x7b\x7d\n\tB int\n)\n\nfunc (a A) y() \x7b\x7d\n\nfunc z() \x7b\x7d\n".toList
    let declaration : Declaration := ⟨"\n\nvar A = 3".toList, .values [['A']]⟩
    ∃ indexed, parse text = .ok indexed ∧ indexed.file.resolve (.before ['A']) = 3 ∧
      let inserted := reindex { indexed with file := indexed.file.insert 3 declaration }
      inserted.file.leadingImports = 2 ∧ inserted.positionOf? ['x'] = some 2 ∧ inserted.positionOf? ['y'] = some 2 ∧
        inserted.positionOf? ['B'] = some 4 ∧ inserted.positionOf? ['z'] = some 6 := by
  repeat rw [String.toList_ofList]
  intro text declaration
  have hrun : (parse text).toOption.any fun indexed =>
      decide (indexed.file.declarations.findIdx? (['A'] ∈ ·.names) = some 3) &&
        decide (indexed.file.leadingImports = 2) &&
        decide (['x', 'y', 'B', 'z'].map (fun c => indexed.positionOf? [c]) = [some 2, some 2, some 3, some 5]) := by
    decide +kernel
  obtain ⟨indexed, hindexed, hrun⟩ := (Option.any_eq_true ..).mp hrun
  simp only [Bool.and_eq_true, decide_eq_true_eq, List.map_cons, List.map_nil, List.cons.injEq, and_true] at hrun
  obtain ⟨⟨hanchor, hlead⟩, hx, hy, hB, hz⟩ := hrun
  have hparse := eq_ok_of_toOption hindexed
  obtain ⟨-, hbound, -, hinsert⟩ := resolve_then_insert (parse_eq_ok hparse).2 (.before ['A'])
  have hresolve := (hbound ['A'] 3 hanchor).2.2 rfl
  obtain ⟨hleading, hmoved⟩ := hinsert declaration (by decide)
  rw [hresolve] at hleading hmoved
  exact ⟨indexed, hparse, hresolve, hleading.trans hlead, hmoved _ _ hx (by decide), hmoved _ _ hy (by decide),
    hmoved _ _ hB (by decide), hmoved _ _ hz (by decide)⟩

end IndexedFile

end GoGraft
