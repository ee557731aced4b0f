import GoGraft.Proofs.ImportRuns
import GoGraft.Proofs.Places
import GoGraft.Proofs.RecordRuns
import GoGraft.Proofs.Rereading

/-!
# The two shapes of an import declaration

After its keyword an import declaration has one import, or a list of imports between parentheses, and nothing after
that. So its layout is known from its lexemes, and an opening parenthesis among them tells which of the two shapes it
has.
-/

namespace GoGraft

namespace Grammar

variable {stack next : List Frame} {kind : LexemeKind} {role : Role} {marked : List Marked}

theorem Reads.importStack (hreads : Reads stack marked next) (hstack : ImportStack stack) : ImportStack next := by
  induction hreads with
  | refl => exact hstack
  | step hadvance _ ih =>
      obtain ⟨-, rfl, -⟩ | hstep := advance_import hstack hadvance
      · exact ih hstack
      · exact ih hstep.importStack

theorem ImportStack.eq_nil_of_leaves (hstack : ImportStack stack) (hleaves : Leaves .newline stack) : stack = [] := by
  cases hstack with
  | done => rfl
  | groupPath =>
      cases hleaves with
      | down hleave => cases hleave
  | _ =>
      cases hleaves with
      | last hleave => cases hleave

theorem Reads.skip_import (hreads : Reads stack marked []) (hstack : ImportStack stack) (hopen : stack ≠ []) :
    ∃ lead m more next, marked = lead ++ m :: more ∧
      (∀ other ∈ lead, other.role = .trivia ∧ Scan.isTrivial other.kind) ∧
      ImportStep stack m.kind m.role next ∧ Reads next more [] := by
  generalize hfinal : ([] : List Frame) = final at hreads
  induction hreads with
  | refl => exact absurd hfinal.symm hopen
  | @step stack next final m rest hadvance hrest ih =>
      subst hfinal
      obtain ⟨hrole, rfl, htrivial⟩ | hstep := advance_import hstack hadvance
      · obtain ⟨lead, first, more, next, rfl, hlead, hstep, hmore⟩ := ih hstack hopen rfl
        exact ⟨m :: lead, first, more, next, rfl, List.forall_mem_cons.mpr ⟨⟨hrole, htrivial⟩, hlead⟩, hstep, hmore⟩
      · exact ⟨[], m, rest, next, rfl, by simp, hstep, hrest⟩

/-- The machine stands between the parentheses of an import declaration. -/
inductive ImportGroup : List Frame → Prop where
  | spec : ImportGroup [.decl .importGroup]
  | path : ImportGroup [.decl .importPath, .decl .importEnd]
  | specEnd : ImportGroup [.decl .importEnd]

theorem ImportGroup.advance (hgroup : ImportGroup stack) (hadvance : advance stack kind = some (role, next)) :
    (role ≠ .groupClose ∧ ImportGroup next) ∨ (role = .groupClose ∧ kind = .mark .closeParen ∧ next = []) := by
  have hstack : ImportStack stack := by cases hgroup <;> constructor
  obtain ⟨rfl, rfl, -⟩ | hstep := advance_import hstack hadvance
  · exact .inl ⟨by decide, hgroup⟩
  · cases hgroup <;> cases hstep
    all_goals first
      | exact .inr ⟨rfl, rfl, rfl⟩
      | exact .inl ⟨by decide, by constructor⟩

theorem Reads.import_close (hreads : Reads stack marked []) (hgroup : ImportGroup stack) :
    ∃ kept close after, marked = kept ++ close :: after ∧ close.role = .groupClose ∧
      close.kind = .mark .closeParen ∧ (∀ m ∈ kept, m.role ≠ .groupClose) ∧ Reads [] after [] := by
  generalize hfinal : ([] : List Frame) = final at hreads
  induction hreads with
  | refl =>
      subst hfinal
      cases hgroup
  | @step stack next final m rest hadvance hrest ih =>
      subst hfinal
      obtain ⟨hrole, hnext⟩ | ⟨hrole, hkind, rfl⟩ := hgroup.advance hadvance
      · obtain ⟨kept, close, after, rfl, hclose, hkind, hkept, hafter⟩ := ih hnext rfl
        exact ⟨m :: kept, close, after, rfl, hclose, hkind, List.forall_mem_cons.mpr ⟨hrole, hkept⟩, hafter⟩
      · exact ⟨[], m, rest, rfl, hrole, hkind, by simp, hrest⟩

/-- The lexemes of one import: its path, after its name if it has one. -/
inductive ImportRun : List Marked → Prop where
  | path {path : Marked} (hrole : path.role = .path) (hkind : path.kind = .string) : ImportRun [path]
  | named {name path : Marked} {between : List Marked} (hname : name.role = .aliasing) (halias : isAlias name.kind)
      (hbetween : ∀ m ∈ between, m.role = .trivia ∧ Scan.isTrivial m.kind) (hrole : path.role = .path)
      (hkind : path.kind = .string) : ImportRun (name :: (between ++ [path]))

theorem ImportRun.ne_groupClose {spec : List Marked} (hspec : ImportRun spec) : ∀ m ∈ spec, m.role ≠ .groupClose := by
  cases hspec with
  | path hrole =>
      rw [List.forall_mem_singleton, hrole]
      decide
  | named hname _ hbetween hrole =>
      rw [List.forall_mem_cons, List.forall_mem_append, List.forall_mem_singleton, hname, hrole]
      refine ⟨by decide, fun m hm => ?_, by decide⟩
      rw [(hbetween m hm).1]
      decide

theorem not_isTrivial_of_isAlias (halias : isAlias kind) : ¬ Scan.isTrivial kind := by
  intro htrivial
  cases kind <;> first | exact absurd htrivial Bool.false_ne_true | cases halias

theorem ImportRun.exists_ends {spec : List Marked} (hspec : ImportRun spec) :
    ∃ first others, spec = first :: others ∧ ¬ Scan.isTrivial first.kind ∧
      ∀ last ∈ (first :: others).getLast?, last.kind = .string := by
  cases hspec with
  | path _ hkind =>
      refine ⟨_, [], rfl, ?_, by simpa using hkind⟩
      rw [hkind]
      nofun
  | @named name path between _ halias _ _ hkind =>
      refine ⟨name, between ++ [path], rfl, ?_, ?_⟩
      · exact not_isTrivial_of_isAlias halias
      · rw [← List.cons_append, List.getLast?_concat]
        simpa using hkind

theorem ImportRun.kinds {spec : List Marked} (hspec : ImportRun spec) :
    ∀ m ∈ spec, Scan.isTrivial m.kind ∨ isAlias m.kind ∨ m.kind = .string := by
  cases hspec with
  | path _ hkind => exact List.forall_mem_singleton.mpr (.inr (.inr hkind))
  | named _ halias hbetween _ hkind =>
      rw [List.forall_mem_cons, List.forall_mem_append, List.forall_mem_singleton]
      exact ⟨.inr (.inl halias), fun m hm => .inl (hbetween m hm).2, .inr (.inr hkind)⟩

/-- An import declaration that ends with its last lexeme has one import, or imports between parentheses. -/
theorem Reads.import_shape (hreads : Reads [.decl .imports] marked [])
    (hlast : ∀ last ∈ marked.getLast?, last.role ≠ .trivia) :
    (∃ lead spec, marked = lead ++ spec ∧ (∀ m ∈ lead, m.role = .trivia ∧ Scan.isTrivial m.kind) ∧ ImportRun spec) ∨
      ∃ kept close, marked = kept ++ [close] ∧ close.role = .groupClose ∧ close.kind = .mark .closeParen ∧
        (∀ m ∈ kept, m.role ≠ .groupClose) ∧ ∃ m ∈ kept, m.kind = .mark .openParen := by
  -- Behind a complete declaration only trivia can stand, and it does not end in trivia.
  have hnil {before after : List Marked} (hmarked : marked = before ++ after) (hafter : Reads [] after []) :
      after = [] := by
    apply List.getLast?_eq_none_iff.mp
    cases hend : after.getLast? with
    | none => rfl
    | some last =>
        exact absurd (hafter.of_nil.2 last (List.mem_of_getLast? hend))
          (hlast last (by rw [hmarked, List.getLast?_append, hend]; rfl))
  obtain ⟨lead, m, more, next, rfl, hlead, hstep, hmore⟩ := hreads.skip_import .start (by simp)
  generalize hkind : m.kind = kind, hrole : m.role = role at hstep
  cases hstep with
  | opens =>
      obtain ⟨kept, close, after, rfl, hclose, hcloseKind, hkept, hafter⟩ := hmore.import_close .spec
      obtain rfl := @hnil (lead ++ m :: (kept ++ [close])) after (by simp) hafter
      refine .inr ⟨lead ++ m :: kept, close, by simp, hclose, hcloseKind, ?_, m, by simp, hkind⟩
      refine List.forall_mem_append.mpr ⟨?_, List.forall_mem_cons.mpr ⟨by rw [hrole]; decide, hkept⟩⟩
      intro other hother
      rw [(hlead other hother).1]
      decide
  | path =>
      obtain rfl := @hnil (lead ++ [m]) more (by simp) hmore
      exact .inl ⟨lead, [m], rfl, hlead, .path hrole hkind⟩
  | named halias =>
      obtain ⟨between, path, after, next, rfl, hbetween, hstep, hafter⟩ := hmore.skip_import .path (by simp)
      generalize hpathKind : path.kind = pathKind, hpathRole : path.role = pathRole at hstep
      cases hstep with
      | namedPath =>
          obtain rfl := @hnil (lead ++ m :: (between ++ [path])) after (by simp) hafter
          exact .inl ⟨lead, m :: (between ++ [path]), rfl, hlead,
            .named hrole (hkind ▸ halias) hbetween hpathRole hpathKind⟩

end Grammar

open Grammar Lexeme

/-- The keyword of an import declaration. -/
def importWord : Lexeme :=
  ⟨.keyword .importWord, "import".toList⟩

/-- An import declaration with parentheses. -/
def Declaration.isGrouped (declaration : Declaration) : Bool :=
  declaration.kind matches .imports _ (.grouped _ _)

namespace Structure

theorem importLayoutOf_grouped {kept after : List Marked} {close : Marked} (text : Text)
    (hkept : ∀ m ∈ kept, m.role ≠ .groupClose) (hclose : close.role = .groupClose) :
    ∃ indent, importLayoutOf text (place 0 (kept ++ close :: after)) = .grouped (sourceOf kept).length indent ∧
      ∀ given ∈ indent, given.all Text.isIndent := by
  have hfind : (place 0 (kept ++ close :: after)).find? (·.role = .groupClose) =
      some ⟨0 + (sourceOf kept).length, close⟩ :=
    @find?_place_append 0 kept after close (fun m => m.role = .groupClose) (by simpa using hkept)
      (decide_eq_true hclose)
  unfold importLayoutOf
  rw [hfind]
  refine ⟨_, by rw [Nat.zero_add], ?_⟩
  intro given hgiven
  obtain ⟨part, -, hpart⟩ := Option.bind_eq_some_iff.mp hgiven
  obtain ⟨first, -, hfirst⟩ := Option.bind_eq_some_iff.mp hpart
  exact isIndent_lineIndent hfirst

theorem importParts_append {left : List Placed} (right : List Placed)
    (hleft : ∀ placed ∈ left, placed.role ≠ .aliasing ∧ placed.role ≠ .path) :
    importParts (left ++ right) = importParts right := by
  have hnone : left.filter (fun placed => placed.role = .aliasing || placed.role = .path) = [] := by
    simpa using hleft
  simp only [importParts, List.filter_append, hnone, List.nil_append]

/-- One import is one part, from its first lexeme to its path. -/
theorem importParts_run {spec : List Marked} (start : Nat) (hspec : ImportRun spec) :
    ∃ part, importParts (place start spec) = [part] ∧ (part.head?.map Placed.start).getD 0 = start ∧
      (part.getLast?.map Placed.stop).getD 0 = start + (sourceOf spec).length ∧
      ((∃ path, spec = [path] ∧ importSpecOf part = ⟨none, unquote path.text, path.text⟩) ∨
        ∃ name between path, spec = name :: (between ++ [path]) ∧ (∀ m ∈ between, Scan.isTrivial m.kind) ∧
          importSpecOf part = ⟨some name.text, unquote path.text, path.text⟩) := by
  cases hspec with
  | @path path hrole hkind =>
      have hpart : importParts (place start [path]) = [[⟨start, path⟩]] := by
        simp [importParts, place, Placed.role, hrole]
      refine ⟨_, hpart, rfl, by simp [Placed.stop, Placed.text], .inl ⟨path, rfl, ?_⟩⟩
      simp [importSpecOf, Placed.role, Placed.text, hrole]
  | @named name path between hname halias hbetween hrole hkind =>
      have hnone : ∀ placed ∈ place (start + name.text.length) between,
          placed.role ≠ .aliasing ∧ placed.role ≠ .path := by
        intro placed hplaced
        rw [Placed.role, (forall_place hbetween placed hplaced).1]
        decide
      have hfilter : (place (start + name.text.length) (between ++ [path])).filter
          (fun placed => placed.role = .aliasing || placed.role = .path) =
            [⟨start + name.text.length + (sourceOf between).length, path⟩] := by
        rw [place_append, List.filter_append, List.filter_eq_nil_iff.mpr (by simpa using hnone)]
        simp [place, Placed.role, hrole]
      have hpart : importParts (place start (name :: (between ++ [path]))) =
          [[⟨start, name⟩, ⟨start + name.text.length + (sourceOf between).length, path⟩]] := by
        rw [place, importParts, List.filter_cons_of_pos (by simp [Placed.role, hname]), hfilter]
        simp [Placed.role, hname, hrole]
      refine ⟨_, hpart, rfl, by simp [Placed.stop, Placed.text, Nat.add_assoc],
        .inr ⟨name, between, path, rfl, fun m hm => (hbetween m hm).2, ?_⟩⟩
      simp [importSpecOf, Placed.role, Placed.text, hname, hrole]

theorem role_before_import {gap lead : List Marked} {head : Marked} (hgap : ∀ m ∈ gap, m.IsLoose)
    (hrole : head.role = .inner) (hlead : ∀ m ∈ lead, m.role = .trivia ∧ Scan.isTrivial m.kind) :
    ∀ m ∈ gap ++ head :: lead, m.role ≠ .groupClose ∧ m.role ≠ .aliasing ∧ m.role ≠ .path := by
  refine List.forall_mem_append.mpr ⟨fun m hm => ?_, List.forall_mem_cons.mpr ⟨?_, fun m hm => ?_⟩⟩
  · obtain hrole | hrole := (hgap m hm).1 <;> rw [hrole] <;> decide
  · rw [hrole]
    decide
  · rw [(hlead m hm).1]
    decide

theorem importParts_single {gap lead : List Marked} {head : Marked} (spec : List Marked)
    (hgap : ∀ m ∈ gap, m.IsLoose) (hrole : head.role = .inner)
    (hlead : ∀ m ∈ lead, m.role = .trivia ∧ Scan.isTrivial m.kind) :
    importParts (place 0 (gap ++ head :: (lead ++ spec))) =
      importParts (place (sourceOf (gap ++ head :: lead)).length spec) := by
  have hfront := role_before_import hgap hrole hlead
  have hsplit : gap ++ head :: (lead ++ spec) = (gap ++ head :: lead) ++ spec := by simp
  rw [hsplit, place_append, importParts_append _ (forall_place fun m hm => (hfront m hm).2), Nat.zero_add]

theorem importLayoutOf_single {gap lead spec : List Marked} {head : Marked} (text : Text)
    (hgap : ∀ m ∈ gap, m.IsLoose) (hhead : head.kind = .keyword .importWord) (hrole : head.role = .inner)
    (hlead : ∀ m ∈ lead, m.role = .trivia ∧ Scan.isTrivial m.kind) (hspec : ImportRun spec) :
    importLayoutOf text (place 0 (gap ++ head :: (lead ++ spec))) =
      .single (sourceOf gap).length (sourceOf (gap ++ head :: lead)).length
        (sourceOf (gap ++ head :: (lead ++ spec))).length := by
  have hfront := role_before_import hgap hrole hlead
  have hsplit : gap ++ head :: (lead ++ spec) = (gap ++ head :: lead) ++ spec := by simp
  have hnone : (place 0 (gap ++ head :: (lead ++ spec))).find? (·.role = .groupClose) = none := by
    rw [List.find?_eq_none, hsplit]
    intro placed hplaced
    have hroles : ∀ m ∈ (gap ++ head :: lead) ++ spec, m.role ≠ .groupClose :=
      List.forall_mem_append.mpr ⟨fun m hm => (hfront m hm).1, hspec.ne_groupClose⟩
    exact fun hrole => forall_place hroles placed hplaced (of_decide_eq_true hrole)
  have hkeyword : (place 0 (gap ++ head :: (lead ++ spec))).find? (·.marked.kind = .keyword .importWord) =
      some ⟨0 + (sourceOf gap).length, head⟩ := by
    apply @find?_place_append 0 gap (lead ++ spec) head (fun m => m.kind = .keyword .importWord)
    · intro m hm hkind
      have hloose := (hgap m hm).2
      rw [of_decide_eq_true hkind] at hloose
      cases hloose
    · exact decide_eq_true hhead
  obtain ⟨part, hpart, hstart, hstop, -⟩ := importParts_run (sourceOf (gap ++ head :: lead)).length hspec
  have hparts := (importParts_single spec hgap hrole hlead).trans hpart
  unfold importLayoutOf
  simp only [hnone, hkeyword, hparts, List.head?_cons, Option.map_some, Option.getD_some, hstart, hstop, Nat.zero_add]
  rw [hsplit, sourceOf_append (gap ++ head :: lead) spec, List.length_append]

end Structure

namespace Declaration.ReadAs

variable {declaration : Declaration} {gap rest tail : List Marked} {head : Marked}
  {frames final : List Frame}

theorem importWord_of_imports (hread : declaration.ReadAs gap head rest tail frames final)
    {specs : List ImportSpec} {layout : ImportLayout} (hkind : declaration.kind = .imports specs layout) :
    head.kind = .keyword .importWord ∧
      layout = Structure.importLayoutOf (sourceOf (gap ++ head :: rest))
        (Structure.place 0 (gap ++ head :: rest)) := by
  have hkindOf := hread.kind_eq
  rw [hkind] at hkindOf
  cases hsection : (Section.mk gap (head :: rest)).kind with
  | importDeclaration =>
      rw [hsection] at hkindOf
      refine ⟨?_, (DeclarationKind.imports.inj hkindOf).2⟩
      unfold Section.kind at hsection
      split at hsection
      case h_2 hhead => exact Option.some.inj hhead
      case h_6 => split at hsection <;> cases hsection
      all_goals cases hsection
  | _ =>
      rw [hsection] at hkindOf
      cases hkindOf

theorem importWord_of_isImport (hread : declaration.ReadAs gap head rest tail frames final)
    (himport : declaration.isImport) : head.kind = .keyword .importWord := by
  cases hkind : declaration.kind with
  | imports specs layout => exact (hread.importWord_of_imports hkind).1
  | _ =>
      rw [Declaration.isImport, hkind] at himport
      cases himport

theorem frames_imports (hread : declaration.ReadAs gap head rest tail frames final)
    (hhead : head.kind = .keyword .importWord) : frames = [.decl .imports] := by
  have hopens := hread.head_opens
  rw [hhead] at hopens
  have hframes := (Prod.mk.inj (Option.some.inj hopens)).2
  exact (@List.append_cancel_right Frame [.decl .imports] _ _ hframes).symm

theorem head_eq_importWord (hread : declaration.ReadAs gap head rest tail frames final)
    (hhead : head.kind = .keyword .importWord) : head = ⟨importWord, .inner⟩ := by
  have hopens := hread.head_opens
  rw [hhead] at hopens
  have hrole : Role.inner = head.role := (Prod.mk.inj (Option.some.inj hopens)).1
  have hmem := (hread.cuts.isCut head.lexeme (by simp)).keyword hhead
  have htext : head.lexeme.text = "import".toList := by
    simpa [keywords] using hmem
  obtain ⟨⟨kind, text⟩, role⟩ := head
  obtain rfl : kind = .keyword .importWord := hhead
  obtain rfl : text = "import".toList := htext
  obtain rfl : Role.inner = role := hrole
  rfl

theorem exists_imports (hread : declaration.ReadAs gap head rest tail frames final)
    (hhead : head.kind = .keyword .importWord) : ∃ specs layout, declaration.kind = .imports specs layout := by
  have hkind := hread.kind_eq
  have hsection : (Section.mk gap (head :: rest)).kind = .importDeclaration := by
    simp [Section.kind, hhead]
  rw [hsection] at hkind
  exact ⟨_, _, hkind⟩

theorem imports_eq (hread : declaration.ReadAs gap head rest tail frames final)
    (hhead : head.kind = .keyword .importWord) :
    declaration.isImport ∧ declaration.imports =
      (Structure.importParts (Structure.place 0 (gap ++ head :: rest))).map
        Structure.importSpecOf := by
  have hkind := hread.kind_eq
  have hsection : (Section.mk gap (head :: rest)).kind = .importDeclaration := by
    simp [Section.kind, hhead]
  rw [hsection] at hkind
  simp [Declaration.isImport, Declaration.imports, hkind, Structure.kindOf]

theorem import_reads (hread : declaration.ReadAs gap head rest tail frames final)
    (hhead : head.kind = .keyword .importWord) : Reads [.decl .imports] rest [] := by
  have hreads := hread.rest_reads
  rw [hread.frames_imports hhead] at hreads
  have hfinal := (hreads.importStack .start).eq_nil_of_leaves hread.ends
  rwa [hfinal] at hreads

theorem not_trivia_last (hread : declaration.ReadAs gap head rest tail frames final) :
    ∀ last ∈ rest.getLast?, last.role ≠ .trivia := by
  intro last hlast htrivia
  have hlevel := hread.item.last last hlast
  rw [htrivia] at hlevel
  exact absurd hlevel (by decide)

/-- The two shapes of an import declaration, each with its layout. -/
theorem import_cases (hread : declaration.ReadAs gap head rest tail frames final) {specs : List ImportSpec}
    {layout : ImportLayout} (hkind : declaration.kind = .imports specs layout) :
    (∃ lead spec, rest = lead ++ spec ∧ (∀ m ∈ lead, m.role = .trivia ∧ Scan.isTrivial m.kind) ∧ ImportRun spec ∧
        layout = .single (sourceOf gap).length (sourceOf (gap ++ head :: lead)).length
          (sourceOf (gap ++ head :: rest)).length) ∨
      ∃ kept close indent, rest = kept ++ [close] ∧ close.kind = .mark .closeParen ∧
        (∃ m ∈ kept, m.kind = .mark .openParen) ∧
        layout = .grouped (sourceOf (gap ++ head :: kept)).length indent ∧
        ∀ given ∈ indent, given.all Text.isIndent := by
  obtain ⟨hhead, hlayout⟩ := hread.importWord_of_imports hkind
  have hrole : head.role = .inner := by rw [hread.head_eq_importWord hhead]
  obtain ⟨lead, spec, rfl, hlead, hspec⟩ | ⟨kept, close, rfl, hclose, hcloseKind, hkept, hopen⟩ :=
    (hread.import_reads hhead).import_shape hread.not_trivia_last
  · refine .inl ⟨lead, spec, rfl, hlead, hspec, hlayout.trans ?_⟩
    exact Structure.importLayoutOf_single _ hread.gap_loose hhead hrole hlead hspec
  · have hfront : ∀ m ∈ gap ++ head :: kept, m.role ≠ .groupClose := by
      refine List.forall_mem_append.mpr ⟨fun m hm => ?_, List.forall_mem_cons.mpr ⟨?_, hkept⟩⟩
      · obtain hrole | hrole := (hread.gap_loose m hm).1 <;> rw [hrole] <;> decide
      · rw [hrole]
        decide
    obtain ⟨indent, hgrouped, hindent⟩ := @Structure.importLayoutOf_grouped (gap ++ head :: kept) [] close
      (sourceOf (gap ++ head :: (kept ++ [close]))) hfront hclose
    refine .inr ⟨kept, close, indent, rfl, hcloseKind, hopen, ?_, hindent⟩
    rw [hlayout, ← hgrouped]
    simp

theorem isGrouped_iff (hread : declaration.ReadAs gap head rest tail frames final)
    (hhead : head.kind = .keyword .importWord) :
    declaration.isGrouped ↔ ∃ m ∈ rest, m.kind = .mark .openParen := by
  obtain ⟨specs, layout, hkind⟩ := hread.exists_imports hhead
  unfold isGrouped
  rw [hkind]
  obtain ⟨lead, spec, rfl, hlead, hspec, rfl⟩ | ⟨kept, close, indent, rfl, -, ⟨m, hm, hopen⟩, rfl, -⟩ :=
    hread.import_cases hkind
  · constructor
    · nofun
    · rintro ⟨m, hm, hopen⟩
      obtain hm | hm := List.mem_append.mp hm
      · have htrivial := (hlead m hm).2
        rw [hopen] at htrivial
        cases htrivial
      · obtain htrivial | halias | hstring := hspec.kinds m hm
        · rw [hopen] at htrivial
          cases htrivial
        · rw [hopen] at halias
          cases halias
        · rw [hopen] at hstring
          cases hstring
  · exact ⟨fun _ => ⟨m, by simp [hm], hopen⟩, fun _ => rfl⟩

end Declaration.ReadAs

end GoGraft
