import GoGraft.Proofs.Boundaries
import GoGraft.Proofs.Sections

/-!
# A file as a row of declarations

A gap between two items is cut in two: the comments on the line where the first item ends stay with it, and the rest
leads to the second. So a file is a row of texts, each read from the stack that the one before it leaves. What one text
needs of its neighbour is that stack, and that the last lexeme before it ends where it begins.
-/

namespace GoGraft

open Scan (Cuts)

namespace Grammar

/-- A stack between two items: no item is open, or one that can end. -/
def Pauses (stack : List Frame) : Prop :=
  stack = fileStack ∨ ∃ upper, Below 4 upper ∧ Leaves .newline upper ∧ stack = upper ++ [.decl .itemEnd]

/-- Every comment has a newline somewhere before it. -/
def isFree : List Lexeme → Bool
  | [] => true
  | lexeme :: rest => lexeme.kind = .newline || (lexeme.kind ≠ .comment && isFree rest)

/-- Nothing, or lexemes on one line up to a comment. -/
structure IsAttached (tail : List Marked) : Prop where
  line : ∀ marked ∈ tail, marked.kind ≠ .newline
  comment : ∀ marked ∈ tail.getLast?, marked.kind = .comment

theorem isAttached_splitAttached (gap : List Marked) : IsAttached (splitAttached gap).1 := by
  induction gap with
  | nil => exact ⟨by simp [splitAttached], by simp [splitAttached]⟩
  | cons marked rest ih =>
      unfold splitAttached
      split
      · exact ⟨by simp, by simp⟩
      · rename_i hline
        dsimp only
        split
        · exact ⟨by simp, by simp⟩
        · rename_i hcomment
          refine ⟨List.forall_mem_cons.mpr ⟨hline, ih.line⟩, ?_⟩
          cases hattached : (splitAttached rest).1 with
          | nil => simpa [hattached] using hcomment
          | cons => simpa [hattached] using ih.comment

theorem isFree_splitAttached (gap : List Marked) : isFree ((splitAttached gap).2.map Marked.lexeme) := by
  induction gap with
  | nil => rfl
  | cons marked rest ih =>
      unfold splitAttached
      split
      · rename_i hline
        exact Bool.or_eq_true_iff.mpr (.inl (decide_eq_true hline))
      · dsimp only
        split
        · rename_i hempty
          obtain ⟨hattached, hcomment⟩ := Bool.and_eq_true_iff.mp hempty
          have hrest := splitAttached_append rest
          rw [List.isEmpty_iff.mp hattached, List.nil_append] at hrest
          rw [hrest] at ih
          exact Bool.or_eq_true_iff.mpr (.inr (Bool.and_eq_true_iff.mpr ⟨hcomment, ih⟩))
        · exact ih

theorem splitAttached_of_isFree {gap : List Marked} (hfree : isFree (gap.map Marked.lexeme)) :
    splitAttached gap = ([], gap) := by
  induction gap with
  | nil => rfl
  | cons marked rest ih =>
      unfold splitAttached
      split
      · rfl
      · rename_i hline
        obtain hnewline | hrest := Bool.or_eq_true_iff.mp hfree
        · exact absurd (of_decide_eq_true hnewline) hline
        · obtain ⟨hcomment, hrest⟩ := Bool.and_eq_true_iff.mp hrest
          have hkind : marked.kind ≠ .comment := of_decide_eq_true hcomment
          simp [ih hrest, hkind]

theorem splitAttached_join {tail gap : List Marked} (hattached : IsAttached tail)
    (hfree : isFree (gap.map Marked.lexeme)) : splitAttached (tail ++ gap) = (tail, gap) := by
  induction tail with
  | nil => exact splitAttached_of_isFree hfree
  | cons marked tail ih =>
      obtain ⟨hline, hcomment⟩ := hattached
      obtain ⟨hmarked, hline⟩ := List.forall_mem_cons.mp hline
      have hrest : IsAttached tail := by
        refine ⟨hline, ?_⟩
        cases tail with
        | nil => simp
        | cons => simpa using hcomment
      have hkeep : (tail.isEmpty && marked.kind ≠ .comment) = false := by
        cases tail with
        | nil => simpa using hcomment
        | cons => rfl
      rw [List.cons_append, splitAttached, if_neg hmarked, ih hrest]
      simp only [hkeep, Bool.false_eq_true, if_false]

theorem Reads.before_item {gap : List Marked} {exit : List Frame} (hloose : ∀ marked ∈ gap, marked.IsLoose)
    (hreads : Reads fileStack gap exit) : exit = fileStack := by
  induction gap with
  | nil =>
      cases hreads
      rfl
  | cons m gap ih =>
      obtain ⟨hm, hothers⟩ := List.forall_mem_cons.mp hloose
      cases hreads with
      | step hadvance hreads =>
          obtain ⟨-, rfl, -⟩ | ⟨hrole, -⟩ := advance_fileStack hadvance
          · exact ih hothers hreads
          · exact absurd hrole hm.not_level

theorem Reads.after_item {tail : List Marked} {final exit : List Frame} (hfinal : Below 4 final)
    (hloose : ∀ marked ∈ tail, marked.IsLoose) (hreads : Reads (final ++ [.decl .itemEnd]) tail exit) :
    exit = final ++ [.decl .itemEnd] ∨ (exit = fileStack ∧ ∃ marked ∈ tail, isTerminator marked.kind) := by
  induction tail with
  | nil =>
      cases hreads
      exact .inl rfl
  | cons m tail ih =>
      obtain ⟨hm, hothers⟩ := List.forall_mem_cons.mp hloose
      cases hreads with
      | step hadvance hreads =>
          obtain ⟨rest, hrest, rfl, -, ⟨-, rfl, -⟩ | hrole⟩ | ⟨-, rfl, hterminator, -⟩ :=
            advance_item hfinal hadvance
          · exact (ih hothers hreads).imp_right fun ⟨hexit, marked, hmarked, hterminator⟩ =>
              ⟨hexit, marked, List.mem_cons_of_mem m hmarked, hterminator⟩
          · exact absurd hrole hm.not_level
          · exact .inr ⟨hreads.before_item hothers, m, List.mem_cons_self, hterminator⟩

theorem Pauses.after_item {final : List Frame} (hfinal : Below 4 final) (hends : Leaves .newline final) :
    Pauses (final ++ [.decl .itemEnd]) :=
  .inr ⟨final, hfinal, hends, rfl⟩

theorem Pauses.through {stack exit : List Frame} {gap : List Marked} (hpauses : Pauses stack)
    (hloose : ∀ marked ∈ gap, marked.IsLoose) (hreads : Reads stack gap exit) : Pauses exit := by
  obtain rfl | ⟨upper, hupper, hends, rfl⟩ := hpauses
  · exact .inl (hreads.before_item hloose)
  · obtain rfl | ⟨rfl, -⟩ := hreads.after_item hupper hloose
    · exact .after_item hupper hends
    · exact .inl rfl

theorem IsGap.free {start stack : List Frame} {gap : List Marked} (hgap : IsGap start gap)
    (hreads : Reads start (splitAttached gap).1 stack) : IsGap stack (splitAttached gap).2 := by
  have hsplit := splitAttached_append gap
  have hlexemes : gap.map Marked.lexeme =
      (splitAttached gap).1.map Marked.lexeme ++ (splitAttached gap).2.map Marked.lexeme := by
    rw [← List.map_append, hsplit]
  obtain ⟨rest, hrest, -, hfree⟩ := hreads.continue_from hgap.reads hlexemes
  obtain rfl : (splitAttached gap).2 = rest := List.append_cancel_left (hsplit.trans hrest)
  exact ⟨fun marked hmarked => hgap.loose marked (hsplit ▸ List.mem_append_right _ hmarked), hfree⟩

theorem IsItem.last_kind {head m : Marked} {rest tail : List Marked} {frames final : List Frame}
    (hitem : IsItem head rest frames final) (hattached : IsAttached tail)
    (hlast : (head :: rest ++ tail).getLast? = some m) : m.kind ≠ .blank := by
  have hreads : Reads fileStack (head :: rest) (final ++ [.decl .itemEnd]) := .step hitem.opens hitem.reads
  have hinner (hmem : m ∈ head :: rest) (hlevel : m.role.level ≤ 4) : m.kind ≠ .blank := by
    intro hblank
    rw [hreads.role_of_blank m hmem hblank] at hlevel
    exact absurd hlevel (by decide)
  rw [List.getLast?_append, Option.or_eq_some_iff] at hlast
  obtain hlast | ⟨-, hlast⟩ := hlast
  · rw [hattached.comment m hlast]
    nofun
  · exact hinner (List.mem_of_getLast? hlast) (hitem.last_level hlast)

end Grammar

open Grammar

/-- The lexemes of a declaration: those before its item, the first of the item, the others, and those that stay with
the item after its end. -/
structure Declaration.ReadAs (declaration : Declaration) (gap : List Marked) (head : Marked)
    (rest tail : List Marked) (frames final : List Frame) : Prop where
  text_eq : declaration.text = sourceOf (gap ++ head :: rest ++ tail)
  kind_eq : declaration.kind =
    Structure.kindOf (Section.mk gap (head :: rest)).kind (gap ++ head :: rest)
  declares : (Section.mk gap (head :: rest)).kind.isDeclaration
  cuts : Cuts ((gap ++ head :: rest ++ tail).map Marked.lexeme) none
  gap_read : ∃ stack, Pauses stack ∧ IsGap stack gap
  gap_free : isFree (gap.map Marked.lexeme)
  item : IsItem head rest frames final
  tail_read : ∃ exit, Reads (final ++ [.decl .itemEnd]) tail exit
  tail_loose : ∀ marked ∈ tail, marked.IsLoose
  tail_attached : IsAttached tail

namespace Declaration.ReadAs

variable {declaration : Declaration} {gap rest tail : List Marked} {head : Marked} {frames final : List Frame}

theorem gap_loose (hread : declaration.ReadAs gap head rest tail frames final) :
    ∀ marked ∈ gap, marked.IsLoose := by
  obtain ⟨stack, -, hgap⟩ := hread.gap_read
  exact hgap.loose

theorem head_opens (hread : declaration.ReadAs gap head rest tail frames final) :
    advance fileStack head.kind = some (head.role, frames ++ [.decl .itemEnd]) :=
  hread.item.opens

theorem frames_below (hread : declaration.ReadAs gap head rest tail frames final) : Below 4 frames :=
  hread.item.below

theorem rest_reads (hread : declaration.ReadAs gap head rest tail frames final) : Reads frames rest final :=
  hread.item.inner

theorem ends (hread : declaration.ReadAs gap head rest tail frames final) : Leaves .newline final :=
  hread.item.ends

end Declaration.ReadAs

/-- The declaration is what the machine makes of its text. -/
def Declaration.IsRead (declaration : Declaration) : Prop :=
  ∃ gap head rest tail frames final, declaration.ReadAs gap head rest tail frames final

def SourceFile.IsRead (file : SourceFile) : Prop :=
  ∀ declaration ∈ file.declarations, declaration.IsRead

/-- Declarations and a trailer, read one after the other from a stack on. The lexeme is the last one before them. -/
inductive Row : List Frame → Lexeme → List Declaration → Text → Prop where
  | trailer {stack : List Frame} {last : Lexeme} {rest : List Marked} (hgap : IsGap stack rest)
      (hfree : isFree (rest.map Marked.lexeme)) (hcuts : Cuts (rest.map Marked.lexeme) none)
      (hends : ∀ c ∈ (sourceOf rest).head?, last.EndsBefore c) : Row stack last [] (sourceOf rest)
  | declaration {stack exit frames final : List Frame} {last : Lexeme} {first : Declaration}
      {gap rest tail : List Marked} {head m : Marked} {others : List Declaration} {trailer : Text}
      (hgap : IsGap stack gap) (hread : first.ReadAs gap head rest tail frames final)
      (hends : ∀ c ∈ first.text.head?, last.EndsBefore c)
      (htail : Reads (final ++ [.decl .itemEnd]) tail exit) (hlast : (head :: rest ++ tail).getLast? = some m)
      (hrow : Row exit m.lexeme others trailer) : Row stack last (first :: others) trailer

theorem Row.isRead {stack : List Frame} {last : Lexeme} {declarations : List Declaration} {trailer : Text}
    (hrow : Row stack last declarations trailer) : ∀ declaration ∈ declarations, declaration.IsRead := by
  induction hrow with
  | trailer => simp
  | declaration _ hread _ _ _ _ ih => exact List.forall_mem_cons.mpr ⟨⟨_, _, _, _, _, _, hread⟩, ih⟩

namespace SourceFile

/-- The gap that follows the item before some sections. -/
def gapBefore (sections : List Section) (rest : List Marked) : List Marked :=
  (sections.head?.map Section.gap).getD rest

theorem exists_marked (sections : List Section) (rest : List Marked) :
    ∃ more, (Outline.mk sections rest).marked = (splitAttached (gapBefore sections rest)).1 ++ more := by
  have hsplit := splitAttached_append (gapBefore sections rest)
  obtain ⟨more, hmore⟩ : ∃ more, (Outline.mk sections rest).marked = gapBefore sections rest ++ more := by
    cases sections <;> simp [Outline.marked, gapBefore]
  exact ⟨_ ++ more, by rw [hmore, ← List.append_assoc, hsplit]⟩

theorem isGap_gapBefore {sections : List Section} {rest : List Marked} {stack : List Frame}
    (hchain : Chain stack sections rest) : IsGap stack (gapBefore sections rest) := by
  cases hchain with
  | rest hrest => exact hrest
  | item hgap => exact hgap

theorem readAs_declarationOf {gap body after : List Marked} {head : Marked}
    {start stack frames final : List Frame} (hgap : IsGap start gap) (hpauses : Pauses start)
    (hstack : Reads start (splitAttached gap).1 stack) (hitem : IsItem head body frames final)
    (hdeclares : (Section.mk gap (head :: body)).kind.isDeclaration)
    (hafter : IsGap (final ++ [.decl .itemEnd]) after)
    (hcuts : Cuts (((splitAttached gap).2 ++ head :: body ++ (splitAttached after).1).map Marked.lexeme) none) :
    (declarationOf ⟨gap, head :: body⟩ after).ReadAs (splitAttached gap).2 head body (splitAttached after).1
      frames final := by
  have hsplit := splitAttached_append gap
  have hsplitAfter := splitAttached_append after
  have hattached : ∀ marked ∈ (splitAttached gap).1, marked.IsLoose :=
    fun marked hmarked => hgap.loose marked (hsplit ▸ List.mem_append_left _ hmarked)
  obtain ⟨exit, htail, -⟩ := (hsplitAfter.symm ▸ hafter.reads).of_append
  refine ⟨?_, rfl, hdeclares, hcuts, ⟨stack, hpauses.through hattached hstack, hgap.free hstack⟩,
    isFree_splitAttached gap, hitem, ⟨exit, htail⟩, ?_, isAttached_splitAttached after⟩
  · rw [declarationOf_text]
    simp
  · exact fun marked hmarked => hafter.loose marked (hsplitAfter ▸ List.mem_append_left _ hmarked)

/-- The declarations of a chain, from the free side of its first gap on. -/
theorem row_of_chain {sections : List Section} {rest more : List Marked} {start stack : List Frame}
    {last : Lexeme} (hchain : Chain start sections rest) (hpauses : Pauses start)
    (hdeclares : ∀ s ∈ sections, s.kind.isDeclaration)
    (hstack : Reads start (splitAttached (gapBefore sections rest)).1 stack)
    (hmore : (Outline.mk sections rest).marked = (splitAttached (gapBefore sections rest)).1 ++ more)
    (hcuts : Cuts (last :: more.map Marked.lexeme) none) :
    Row stack last ((withGaps sections rest).map fun (s, after) => declarationOf s after)
      (sourceOf (splitAttached rest).2) := by
  induction hchain generalizing stack last more with
  | @rest start rest hrest =>
      obtain ⟨-, hends, hcuts⟩ := hcuts
      obtain rfl : (splitAttached rest).2 = more :=
        List.append_cancel_left ((splitAttached_append rest).trans hmore)
      rw [Option.or_none, source_map_lexeme] at hends
      exact .trailer (hrest.free hstack) (isFree_splitAttached rest) hcuts hends
  | @item start frames final gap body rest head sections hgap hitem hchain ih =>
      obtain ⟨hdeclared, hothers⟩ := List.forall_mem_cons.mp hdeclares
      have hafter := isGap_gapBefore hchain
      obtain ⟨exit, htail, -⟩ := ((splitAttached_append (gapBefore sections rest)).symm ▸ hafter.reads).of_append
      obtain ⟨next, hnext⟩ := exists_marked sections rest
      generalize htailEq : (splitAttached (gapBefore sections rest)).1 = tail at *
      obtain ⟨m, hlast⟩ : ∃ m, (head :: body ++ tail).getLast? = some m :=
        ⟨_, List.getLast?_eq_some_getLast (by simp)⟩
      obtain ⟨front, hfront⟩ := List.getLast?_eq_some_iff.mp hlast
      have hdeclaration : (splitAttached gap).2 ++ head :: body ++ tail = (splitAttached gap).2 ++ front ++ [m] := by
        rw [List.append_assoc, List.append_assoc, ← hfront]
      -- Behind the attached side stands the declaration, and behind the declaration what the next one begins with.
      obtain rfl : (splitAttached gap).2 ++ front ++ m :: next = more := by
        apply List.append_cancel_left (hmore.symm.trans _).symm
        rw [List.append_cons, ← hdeclaration]
        simp only [← List.append_assoc]
        change _ = (splitAttached gap).1 ++ (splitAttached gap).2 ++ _ ++ _ ++ _
        rw [splitAttached_append]
        simpa [Outline.marked] using hnext
      obtain ⟨-, hends, hcuts⟩ := hcuts
      rw [Option.or_none, source_map_lexeme] at hends
      rw [List.map_append, List.map_cons] at hcuts
      have hread := readAs_declarationOf hgap hpauses hstack hitem hdeclared hafter (by
        rw [htailEq, hdeclaration, List.map_append]
        rw [List.append_cons] at hcuts
        exact (Scan.Cuts.append_iff.mp hcuts).1.forget)
      have hbehind : ∀ c ∈ (declarationOf ⟨gap, head :: body⟩ (gapBefore sections rest)).text.head?,
          last.EndsBefore c := by
        intro c hc
        apply hends
        rw [hread.text_eq, htailEq, hdeclaration] at hc
        rw [List.append_cons, sourceOf_append, List.head?_append, hc]
        rfl
      rw [withGaps_cons]
      exact .declaration (hgap.free hstack) (htailEq ▸ hread) hbehind htail hlast
        (ih (.after_item hitem.final_below hitem.ends) hothers htail hnext (Scan.Cuts.append_iff.mp hcuts).2)

theorem ofOutline_eq_ok {outline : Outline} {file : SourceFile} :
    ofOutline outline = .ok file ↔ ∃ clause others, outline.sections = clause :: others ∧
      clause.kind = .packageClause ∧ (∀ s ∈ others, s.kind.isDeclaration) ∧
      file =
        { header := clause.source ++ sourceOf (splitAttached (gapBefore others outline.rest)).1
          package := Structure.packageOf clause.body
          declarations := (withGaps others outline.rest).map fun (s, after) => declarationOf s after
          trailer := sourceOf (splitAttached outline.rest).2 } := by
  have hlast (others : List Section) :
      (if others.isEmpty then (others.head?.map Section.gap).getD outline.rest else outline.rest) =
        outline.rest := by
    cases others <;> rfl
  have hall (others : List Section) : others.drop (others.takeWhile (·.kind.isDeclaration)).length = [] ↔
      ∀ s ∈ others, s.kind.isDeclaration := by
    induction others with
    | nil => simp
    | cons s others ih =>
        rw [List.takeWhile_cons, List.forall_mem_cons, ← ih]
        split <;> simp_all
  unfold ofOutline
  cases hsections : outline.sections with
  | nil => simp
  | cons clause others =>
      simp only [hlast]
      by_cases hclause : clause.kind = .packageClause
      · rw [if_neg (not_not_intro hclause)]
        cases hdrop : others.drop (others.takeWhile (·.kind.isDeclaration)).length with
        | nil =>
            have hdeclares := (hall others).mp hdrop
            constructor
            · intro hfile
              exact ⟨clause, others, rfl, hclause, hdeclares, (Except.ok.inj hfile).symm⟩
            · rintro ⟨_, _, hcons, -, -, rfl⟩
              obtain ⟨rfl, rfl⟩ := List.cons.inj hcons
              rfl
        | cons misplaced more =>
            constructor
            · nofun
            · rintro ⟨_, _, hcons, -, hdeclares, -⟩
              obtain ⟨rfl, rfl⟩ := List.cons.inj hcons
              rw [(hall others).mpr hdeclares] at hdrop
              cases hdrop
      · rw [if_pos hclause]
        constructor
        · nofun
        · rintro ⟨_, _, hcons, hkind, -⟩
          obtain ⟨rfl, rfl⟩ := List.cons.inj hcons
          exact absurd hkind hclause

/-- The text after the declarations as it is read, with a newline where the file does not end with one. -/
def ending (file : SourceFile) : Text :=
  if file.render.getLast? = some '\n' then file.trailer else file.trailer ++ ['\n']

end SourceFile

/-- The lexemes of a header: the package clause with what stands before it, and what stays with it. The machine is at
`exit` after them, and `last` is the last one. -/
structure HasHeader (header package : Text) (gap : List Marked) (head : Marked) (rest tail : List Marked)
    (frames final exit : List Frame) (last : Lexeme) : Prop where
  text_eq : header = sourceOf (gap ++ head :: rest ++ tail)
  package_eq : package = Structure.packageOf (head :: rest)
  clause : (Section.mk gap (head :: rest)).kind = .packageClause
  gap_read : IsGap fileStack gap
  item : IsItem head rest frames final
  tail_read : Reads (final ++ [.decl .itemEnd]) tail exit
  tail_loose : ∀ marked ∈ tail, marked.IsLoose
  tail_attached : IsAttached tail
  last_eq : (head :: rest ++ tail).getLast?.map Marked.lexeme = some last
  last_cut : last.IsCut
  file_eq {more : Text} (hmore : ∀ c ∈ more.head?, last.EndsBefore c) :
    Scan.file (header ++ more) = (gap ++ head :: rest ++ tail).map Marked.lexeme ++ Scan.lexemes more

namespace SourceFile

theorem exists_row_of_parseTerminated {text : Text} {file : SourceFile} (hparse : parseTerminated text = .ok file) :
    ∃ gap head rest tail frames final exit last,
      HasHeader file.header file.package gap head rest tail frames final exit last ∧
        Row exit last file.declarations file.trailer := by
  unfold parseTerminated at hparse
  split at hparse
  case h_2 => cases hparse
  rename_i outline houtline
  obtain ⟨marked, hreads, hlexemes, rfl⟩ := outline?_eq_some houtline
  obtain ⟨clause, others, hsections, hclause, hdeclares, rfl⟩ := ofOutline_eq_ok.mp hparse
  have hmarked := Outline.ofMarked_marked marked
  have hchain := chain_ofMarked hreads
  generalize Outline.ofMarked marked = outline at *
  obtain ⟨sections, after⟩ := outline
  obtain rfl : sections = clause :: others := hsections
  cases hchain with
  | @item _ frames final gap rest _ head _ hgap hitem hchain =>
      have hafter := isGap_gapBefore hchain
      have hsplit := splitAttached_append (gapBefore others after)
      obtain ⟨exit, htail, -⟩ := (hsplit.symm ▸ hafter.reads).of_append
      obtain ⟨more, hmore⟩ := exists_marked others after
      obtain ⟨m, hlast⟩ : ∃ m, (head :: rest ++ (splitAttached (gapBefore others after)).1).getLast? = some m :=
        ⟨_, List.getLast?_eq_some_getLast (by simp)⟩
      obtain ⟨front, hfront⟩ := List.getLast?_eq_some_iff.mp hlast
      have hkind := hitem.last_kind (isAttached_splitAttached _) hlast
      have hheader : gap ++ head :: rest ++ (splitAttached (gapBefore others after)).1 = gap ++ front ++ [m] := by
        rw [List.append_assoc, List.append_assoc, ← hfront]
      have hfile : Scan.file text = (gap ++ front).map Marked.lexeme ++ m.lexeme :: more.map Marked.lexeme := by
        have hall : (Outline.mk (⟨gap, head :: rest⟩ :: others) after).marked = gap ++ front ++ m :: more := by
          rw [List.append_cons, ← hheader, List.append_assoc, ← hmore]
          simp [Outline.marked]
        rw [← hlexemes, ← hmarked, hall, List.map_append, List.map_cons]
      have htext : (Section.mk gap (head :: rest)).source ++
          sourceOf (splitAttached (gapBefore others after)).1 = sourceOf (gap ++ front ++ [m]) := by
        rw [← hheader]
        simp [Section.source]
      -- From its last lexeme on, what follows the header is cut as any text, a byte order mark or not.
      have hcuts := Scan.cuts_file hfile hkind
      refine ⟨gap, head, rest, (splitAttached (gapBefore others after)).1, frames, final, exit, m.lexeme,
        ⟨by rw [htext, hheader], rfl, hclause, hgap, hitem, htail, ?_, isAttached_splitAttached _, by rw [hlast]; rfl,
          hcuts.1, ?_⟩,
        row_of_chain hchain (.after_item hitem.final_below hitem.ends) hdeclares htail hmore hcuts⟩
      · exact fun marked hmarked => hafter.loose marked (hsplit ▸ List.mem_append_left _ hmarked)
      · intro other hother
        have hcut := Scan.file_append hfile hkind hother
        rw [htext, hheader, ← source_map_lexeme, List.map_append]
        simpa using hcut

theorem exists_row_of_parse {text : Text} {file : SourceFile} (hparse : parse text = .ok file) :
    ∃ gap head rest tail frames final exit last,
      HasHeader file.header file.package gap head rest tail frames final exit last ∧
        Row exit last file.declarations file.ending := by
  have hrender := render_of_parse hparse
  unfold ending
  rw [hrender]
  unfold parse at hparse
  split at hparse
  · rename_i hnewline
    rw [if_pos hnewline]
    exact exists_row_of_parseTerminated hparse
  · rename_i hnewline
    rw [if_neg hnewline]
    split at hparse
    · cases hparse
    · rename_i padded hpadded
      split at hparse
      · rename_i htrailer
        obtain rfl := Except.ok.inj hparse
        obtain ⟨front, hfront⟩ := List.getLast?_eq_some_iff.mp htrailer
        have hlast : padded.trailer.dropLast ++ ['\n'] = padded.trailer := by simp [hfront]
        simp only [hlast]
        exact exists_row_of_parseTerminated hpadded
      · cases hparse

/-- The declarations of a file are what the machine makes of their texts. -/
theorem isRead_of_parse {text : Text} {file : SourceFile} (hparse : parse text = .ok file) :
    file.IsRead := by
  obtain ⟨_, _, _, _, _, _, _, _, -, hrow⟩ := exists_row_of_parse hparse
  exact hrow.isRead

/-- The file in which a declaration is read on its own. -/
def alone (package : Text) (declaration : Declaration) : SourceFile :=
  ⟨snippetHeader, package, [declaration], []⟩

theorem render_alone (package : Text) (declaration : Declaration) :
    (alone package declaration).render = snippetHeader ++ declaration.text := by
  simp [alone, render]

end SourceFile

theorem Declaration.parse_eq_ok {text : Text} {declaration : Declaration} :
    Declaration.parse text = .ok declaration ↔
      ∃ package, SourceFile.parse (snippetHeader ++ text) = .ok (SourceFile.alone package declaration) := by
  constructor
  · intro hparse
    obtain ⟨⟨header, package, declarations, trailer⟩, hfile, hparse⟩ := bind_eq_ok.mp hparse
    dsimp only at hparse
    split at hparse
    · split at hparse
      · rename_i halone
        obtain rfl := Except.ok.inj hparse
        obtain ⟨rfl, rfl⟩ : header = snippetHeader ∧ trailer = [] := by simpa using halone
        exact ⟨package, hfile⟩
      · cases hparse
    · cases hparse
  · rintro ⟨package, hfile⟩
    exact bind_eq_ok.mpr ⟨_, hfile, rfl⟩

theorem Declaration.isRead_of_parse {text : Text} {declaration : Declaration}
    (hparse : Declaration.parse text = .ok declaration) :
    declaration.IsRead ∧ declaration.text = text := by
  obtain ⟨package, hfile⟩ := parse_eq_ok.mp hparse
  have hrender := SourceFile.render_of_parse hfile
  rw [SourceFile.render_alone] at hrender
  exact ⟨SourceFile.isRead_of_parse hfile declaration List.mem_cons_self, List.append_cancel_left hrender⟩

end GoGraft
