import GoGraft.Proofs.ImportShapes

/-!
# The imports of a list of lexemes

In an import declaration every string is the path of an import, and a name or a dot is the local name for the path that
comes next. So the imports of a declaration can be read off the kinds of its lexemes, piece by piece: it is enough to
know of each piece which imports it has, and whether it ends after a local name.
-/

namespace GoGraft

open Grammar

/-- The imports among some lexemes, the first of them for a local name that came before. -/
def importsIn (name : Option Text) : List Lexeme → List ImportSpec
  | [] => []
  | lexeme :: others =>
      if lexeme.kind = .string then
        ⟨name, Structure.unquote lexeme.text, lexeme.text⟩ :: importsIn none others
      else if isAlias lexeme.kind then
        importsIn (some lexeme.text) others
      else
        importsIn name others

/-- The local name whose path has not come yet. -/
def openName (name : Option Text) : List Lexeme → Option Text
  | [] => name
  | lexeme :: others =>
      if lexeme.kind = .string then
        openName none others
      else if isAlias lexeme.kind then
        openName (some lexeme.text) others
      else
        openName name others

/-- A lexeme that is part of an import. -/
def isImportPart (kind : LexemeKind) : Bool :=
  kind = .string || isAlias kind

theorem not_isImportPart_of_isLoose {kind : LexemeKind} (hloose : isLoose kind) : ¬ isImportPart kind := by
  cases kind with
  | mark mark => cases mark <;> first | decide | cases hloose
  | blank | comment | newline => decide
  | _ => cases hloose

theorem importsIn_append (name : Option Text) (left right : List Lexeme) :
    importsIn name (left ++ right) = importsIn name left ++ importsIn (openName name left) right := by
  fun_induction openName name left with
  | case1 => rfl
  | case2 name lexeme others hstring ih => simp [importsIn, hstring, ih]
  | case3 name lexeme others hstring halias ih => simp [importsIn, hstring, halias, ih]
  | case4 name lexeme others hstring halias ih => simp [importsIn, hstring, halias, ih]

theorem openName_append (name : Option Text) (left right : List Lexeme) :
    openName name (left ++ right) = openName (openName name left) right := by
  fun_induction openName name left with
  | case1 => rfl
  | case2 name lexeme others hstring ih => simp [openName, hstring, ih]
  | case3 name lexeme others hstring halias ih => simp [openName, hstring, halias, ih]
  | case4 name lexeme others hstring halias ih => simp [openName, hstring, halias, ih]

theorem imports_of_ignored (name : Option Text) {ignored : List Lexeme}
    (hignored : ∀ lexeme ∈ ignored, ¬ isImportPart lexeme.kind) :
    importsIn name ignored = [] ∧ openName name ignored = name := by
  induction ignored with
  | nil => exact ⟨rfl, rfl⟩
  | cons lexeme others ih =>
      obtain ⟨hlexeme, hothers⟩ := List.forall_mem_cons.mp hignored
      simp only [isImportPart, Bool.or_eq_true, decide_eq_true_eq, not_or] at hlexeme
      simp only [importsIn, openName, hlexeme, if_false]
      exact ih hothers

theorem imports_between {before middle after : List Lexeme}
    (hbefore : ∀ lexeme ∈ before, ¬ isImportPart lexeme.kind) (hafter : ∀ lexeme ∈ after, ¬ isImportPart lexeme.kind) :
    importsIn none (before ++ (middle ++ after)) = importsIn none middle ∧
      openName none (before ++ (middle ++ after)) = openName none middle := by
  obtain ⟨himports, hname⟩ := imports_of_ignored none hbefore
  obtain ⟨himports', hname'⟩ := imports_of_ignored (openName none middle) hafter
  rw [importsIn_append, importsIn_append, openName_append, openName_append, himports, hname, himports', hname']
  exact ⟨List.append_nil _, rfl⟩

theorem exists_string_of_mem_importsIn {name : Option Text} {lexemes : List Lexeme} {spec : ImportSpec}
    (hspec : spec ∈ importsIn name lexemes) :
    ∃ lexeme ∈ lexemes, lexeme.kind = .string ∧ Structure.unquote lexeme.text = spec.path := by
  fun_induction importsIn name lexemes with
  | case1 => cases hspec
  | case2 name lexeme others hstring ih =>
      obtain rfl | hspec := List.mem_cons.mp hspec
      · exact ⟨lexeme, List.mem_cons_self, hstring, rfl⟩
      · obtain ⟨other, hother, hfound⟩ := ih hspec
        exact ⟨other, List.mem_cons_of_mem _ hother, hfound⟩
  | case3 name lexeme others _ _ ih | case4 name lexeme others _ _ ih =>
      obtain ⟨other, hother, hfound⟩ := ih hspec
      exact ⟨other, List.mem_cons_of_mem _ hother, hfound⟩

theorem exists_import_of_string {lexemes : List Lexeme} {lexeme : Lexeme} (name : Option Text)
    (hlexeme : lexeme ∈ lexemes) (hkind : lexeme.kind = .string) :
    ∃ spec ∈ importsIn name lexemes, spec.path = Structure.unquote lexeme.text := by
  obtain ⟨front, back, rfl⟩ := List.append_of_mem hlexeme
  refine ⟨⟨openName name front, Structure.unquote lexeme.text, lexeme.text⟩, ?_, rfl⟩
  simp [importsIn_append, importsIn, hkind]

namespace Grammar

variable {stack next : List Frame} {kind : LexemeKind} {role : Role} {marked : List Marked}

/-- The machine has read a local name, and the path comes next. -/
def isNamed (stack : List Frame) : Prop :=
  stack.head? = some (.decl .importPath)

theorem ImportStep.part_cases (hstep : ImportStep stack kind role next) :
    (kind = .string ∧ role = .path ∧ ¬ isNamed next) ∨
      (kind ≠ .string ∧ isAlias kind ∧ role = .aliasing ∧ ¬ isNamed stack ∧ isNamed next) ∨
      (¬ isImportPart kind ∧ role ≠ .aliasing ∧ role ≠ .path ∧ ¬ isNamed stack ∧ ¬ isNamed next) := by
  cases hstep with
  | path | namedPath | groupPath | groupNamedPath => exact .inl ⟨rfl, rfl, by simp [isNamed]⟩
  | named halias | groupNamed halias =>
      refine .inr (.inl ⟨?_, halias, rfl, by simp [isNamed], by simp [isNamed]⟩)
      rintro rfl
      cases halias
  | splits hterminator =>
      have hignored := not_isImportPart_of_isLoose (isLoose_of_isTerminator hterminator)
      exact .inr (.inr ⟨hignored, by decide, by decide, by simp [isNamed], by simp [isNamed]⟩)
  | opens | closesEmpty | closes =>
      exact .inr (.inr ⟨by decide, by decide, by decide, by simp [isNamed], by simp [isNamed]⟩)

end Grammar

namespace Structure

variable {stack : List Frame} {marked : List Marked}

theorem importParts_skip {lead rest : List Placed} {placed : Placed} (halias : placed.role ≠ .aliasing)
    (hpath : placed.role ≠ .path) : importParts (lead ++ placed :: rest) = importParts (lead ++ rest) := by
  simp [importParts, List.filter_append, halias, hpath]

/-- A local name that has been read, if the machine has read one. -/
inductive NameRead (stack : List Frame) : List Placed → Prop where
  | none (hstack : ¬ isNamed stack) : NameRead stack []
  | name {first : Placed} (hrole : first.role = .aliasing) (hstack : isNamed stack) : NameRead stack [first]

theorem importParts_path {lead rest : List Placed} {path : Placed} (hlead : NameRead stack lead)
    (hpath : path.role = .path) :
    (importParts (lead ++ path :: rest)).map importSpecOf =
      ⟨lead.head?.map Placed.text, unquote path.text, path.text⟩ :: (importParts rest).map importSpecOf := by
  cases hlead with
  | none => simp [importParts, importSpecOf, hpath]
  | name hrole => simp [importParts, importSpecOf, hpath, hrole]

/-- The rest of an import declaration has the imports that the kinds of its lexemes show. -/
theorem importSpecs_of_reads (hreads : Reads stack marked []) (hstack : ImportStack stack) (start : Nat)
    {lead : List Placed} (hlead : NameRead stack lead) :
    (importParts (lead ++ place start marked)).map importSpecOf =
        importsIn (lead.head?.map Placed.text) (marked.map Marked.lexeme) ∧
      openName (lead.head?.map Placed.text) (marked.map Marked.lexeme) = none := by
  generalize hfinal : ([] : List Frame) = final at hreads
  induction hreads generalizing start lead with
  | refl =>
      subst hfinal
      cases hlead with
      | none => exact ⟨rfl, rfl⟩
      | name _ hnamed => cases hnamed
  | @step stack next final m rest hadvance hrest ih =>
      subst hfinal
      -- A lexeme that is no part of an import changes neither side.
      have hskip (hkind : ¬ isImportPart m.kind) (halias : m.role ≠ .aliasing) (hpath : m.role ≠ .path)
          (hstack : ImportStack next) (hlead : NameRead next lead) :
          (importParts (lead ++ place start (m :: rest))).map importSpecOf =
              importsIn (lead.head?.map Placed.text) ((m :: rest).map Marked.lexeme) ∧
            openName (lead.head?.map Placed.text) ((m :: rest).map Marked.lexeme) = none := by
        have hignored := imports_of_ignored (lead.head?.map Placed.text) (List.forall_mem_singleton.mpr hkind)
        rw [place, @importParts_skip lead _ ⟨start, m⟩ halias hpath, List.map_cons, ← List.singleton_append,
          importsIn_append, openName_append, hignored.1, hignored.2, List.nil_append]
        exact ih hstack (start + m.text.length) hlead rfl
      obtain ⟨hrole, rfl, htrivial⟩ | hstep := advance_import hstack hadvance
      · have hignored := not_isImportPart_of_isLoose (isLoose_of_isTrivial htrivial)
        exact hskip hignored (by simp [hrole]) (by simp [hrole]) hstack hlead
      · obtain ⟨hkind, hrole, hnext⟩ | ⟨hkind, halias, hrole, hnamed, hnext⟩ | ⟨hkind, halias, hpath, hnamed, hnext⟩ :=
          hstep.part_cases
        · obtain ⟨hspecs, hopen⟩ := ih hstep.importStack (start + m.text.length) (.none hnext) rfl
          rw [place, @importParts_path stack lead _ ⟨start, m⟩ hlead hrole]
          have hstring : m.lexeme.kind = .string := hkind
          simp only [List.map_cons, importsIn, openName, hstring, if_true]
          exact ⟨congrArg (List.cons _) hspecs, hopen⟩
        · cases hlead with
          | name _ hstack => exact absurd hstack hnamed
          | none =>
              obtain ⟨hspecs, hopen⟩ :=
                ih hstep.importStack (start + m.text.length) (@NameRead.name next ⟨start, m⟩ hrole hnext) rfl
              have hstring : m.lexeme.kind ≠ .string := hkind
              have hname : isAlias m.lexeme.kind := halias
              simp only [List.map_cons, importsIn, openName, hstring, hname, if_false, if_true]
              exact ⟨hspecs, hopen⟩
        · cases hlead with
          | none => exact hskip hkind halias hpath hstep.importStack (.none hnext)
          | name _ hstack => exact absurd hstack hnamed

end Structure

namespace Declaration.ReadAs

variable {declaration : Declaration} {gap rest tail : List Marked} {head : Marked} {frames final : List Frame}

/-- The imports of an import declaration are those of the lexemes after its keyword. -/
theorem imports_eq_importsIn (hread : declaration.ReadAs gap head rest tail frames final)
    (hhead : head.kind = .keyword .importWord) :
    declaration.imports = importsIn none (rest.map Marked.lexeme) ∧ openName none (rest.map Marked.lexeme) = none := by
  have hrole : head.role = .inner := by rw [hread.head_eq_importWord hhead]
  have hfront := Structure.role_before_import hread.gap_loose hrole (List.forall_mem_nil _)
  have hparts : Structure.importParts (Structure.place 0 (gap ++ head :: rest)) =
      Structure.importParts (Structure.place (sourceOf (gap ++ [head])).length rest) := by
    have hsplit : gap ++ head :: rest = (gap ++ [head]) ++ rest := by simp
    rw [hsplit, Structure.place_append, Nat.zero_add,
      Structure.importParts_append _ (Structure.forall_place fun m hm => (hfront m hm).2)]
  rw [(hread.imports_eq hhead).2, hparts]
  exact Structure.importSpecs_of_reads (hread.import_reads hhead) .start _ (.none (by simp [isNamed]))

theorem exists_import (hread : declaration.ReadAs gap head rest tail frames final)
    (hhead : head.kind = .keyword .importWord) {m : Marked} (hm : m ∈ rest) (hkind : m.kind = .string) :
    ∃ spec ∈ declaration.imports, spec.path = Structure.unquote m.text := by
  rw [(hread.imports_eq_importsIn hhead).1]
  exact exists_import_of_string none (List.mem_map_of_mem hm) hkind

end Declaration.ReadAs

end GoGraft
