import GoGraft.Proofs.FinalNewline

/-!
# Which item orders make a file

A text that the grammar accepts is a list of items in their order, with comments between them. It is a file when the
first item that is no comment is a package clause and all later ones are declarations. Comments never count: they lead
no file and hide no missing clause. Where the order is wrong, the error is about the first item that is out of place.
-/

namespace GoGraft

open Grammar

namespace Grammar

/-- The grammar reads a text as the items of the outline, with the gaps between them. -/
structure Outline.IsOutlineOf (outline : Outline) (text : Text) : Prop where
  chain : Chain fileStack outline.sections outline.rest
  lexemes : Scan.file text = outline.marked.map Marked.lexeme

theorem Outline.isOutlineOf_iff {outline : Outline} {text : Text} :
    outline.IsOutlineOf text ↔ outline? text = some outline := by
  constructor
  · rintro ⟨hchain, hlexemes⟩
    exact SourceFile.outline?_of_chain hchain hlexemes
  · intro houtline
    obtain ⟨marked, hreads, hlexemes, rfl⟩ := outline?_eq_some houtline
    refine ⟨chain_ofMarked hreads, ?_⟩
    rw [ofMarked_marked, hlexemes]

/-- What stands at the top level of a text: a comment, which has no kind, or an item. -/
structure TopItem where
  kind : Option ItemKind
  before : Text
  text : Text
deriving DecidableEq, Repr

namespace TopItem

def isDeclaration (item : TopItem) : Bool :=
  item.kind.any ItemKind.isDeclaration

/-- An item that may not follow the package clause. -/
def isMisplaced (item : TopItem) : Bool :=
  item.kind = some .statement || item.kind = some .packageClause

/-- The item ends where the other one begins, or before that. -/
def Precedes (item other : TopItem) : Prop :=
  item.before ++ item.text <+: other.before

end TopItem

/-- The comments of a gap that stands behind a text. -/
def commentsFrom (front : Text) : List Marked → List TopItem
  | [] => []
  | marked :: gap =>
      let comments := commentsFrom (front ++ marked.text) gap
      if marked.kind = .comment then ⟨none, front, marked.text⟩ :: comments else comments

def Section.item (front : Text) (s : Section) : TopItem :=
  ⟨some s.kind, front ++ sourceOf s.gap, sourceOf s.body⟩

/-- The comments and items of sections, and the comments of the gap after them. -/
def itemsFrom (front : Text) (rest : List Marked) : List Section → List TopItem
  | [] => commentsFrom front rest
  | s :: sections => commentsFrom front s.gap ++ s.item front :: itemsFrom (front ++ s.source) rest sections

def Outline.items (outline : Outline) : List TopItem :=
  itemsFrom [] outline.rest outline.sections

/-- The items that are no comments. -/
def Outline.properItems (outline : Outline) : List TopItem :=
  outline.items.filter (·.kind.isSome)

/-- The first item that is no comment is a package clause. -/
def Outline.LeadsWithClause (outline : Outline) : Prop :=
  ∃ clause ∈ outline.properItems.head?, clause.kind = some .packageClause

theorem commentsFrom_spec (front : Text) (gap : List Marked) :
    (∀ item ∈ commentsFrom front gap, item.kind = none ∧ front <+: item.before ∧
        item.before ++ item.text <+: front ++ sourceOf gap) ∧
      (commentsFrom front gap).Pairwise TopItem.Precedes := by
  induction gap generalizing front with
  | nil => simp [commentsFrom]
  | cons marked gap ih =>
      obtain ⟨hcomments, hordered⟩ := ih (front ++ marked.text)
      have hsource : front ++ sourceOf (marked :: gap) = front ++ marked.text ++ sourceOf gap := by simp [sourceOf]
      have hlater : ∀ item ∈ commentsFrom (front ++ marked.text) gap, item.kind = none ∧ front <+: item.before ∧
          item.before ++ item.text <+: front ++ sourceOf (marked :: gap) := by
        intro item hitem
        obtain ⟨hkind, hfront, hend⟩ := hcomments item hitem
        exact ⟨hkind, (List.prefix_append _ _).trans hfront, hsource ▸ hend⟩
      rw [commentsFrom]
      split
      · refine ⟨List.forall_mem_cons.mpr ⟨⟨rfl, List.prefix_rfl, ?_⟩, hlater⟩, List.pairwise_cons.mpr ⟨?_, hordered⟩⟩
        · exact hsource ▸ List.prefix_append _ _
        · exact fun item hitem => (hcomments item hitem).2.1
      · exact ⟨hlater, hordered⟩

/-- Items stand inside the text of their sections, one after the other. -/
theorem itemsFrom_spec (front : Text) (rest : List Marked) (sections : List Section) :
    (∀ item ∈ itemsFrom front rest sections, front <+: item.before ∧
        item.before ++ item.text <+: front ++ (Outline.mk sections rest).source) ∧
      (itemsFrom front rest sections).Pairwise TopItem.Precedes := by
  induction sections generalizing front with
  | nil =>
      obtain ⟨hcomments, hordered⟩ := commentsFrom_spec front rest
      exact ⟨fun item hitem => (hcomments item hitem).2, hordered⟩
  | cons s sections ih =>
      obtain ⟨hcomments, hgap⟩ := commentsFrom_spec front s.gap
      obtain ⟨hitems, hordered⟩ := ih (front ++ s.source)
      have hsource : front ++ (Outline.mk (s :: sections) rest).source =
          front ++ s.source ++ (Outline.mk sections rest).source := by
        simp [Outline.source]
      have hgapSource : front ++ sourceOf s.gap ++ sourceOf s.body = front ++ s.source := by simp [Section.source]
      have hthrough : front ++ s.source <+: front ++ (Outline.mk (s :: sections) rest).source :=
        hsource ▸ List.prefix_append _ _
      have hgapThrough : front ++ sourceOf s.gap <+: front ++ s.source := hgapSource ▸ List.prefix_append _ _
      rw [itemsFrom]
      constructor
      · refine List.forall_mem_append.mpr ⟨?_, List.forall_mem_cons.mpr ⟨⟨List.prefix_append _ _, ?_⟩, ?_⟩⟩
        · intro item hitem
          obtain ⟨-, hfront, hend⟩ := hcomments item hitem
          exact ⟨hfront, (hend.trans hgapThrough).trans hthrough⟩
        · exact hgapSource ▸ hthrough
        · intro item hitem
          obtain ⟨hfront, hend⟩ := hitems item hitem
          exact ⟨(List.prefix_append _ _).trans hfront, hsource ▸ hend⟩
      · refine List.pairwise_append.mpr ⟨hgap, List.pairwise_cons.mpr ⟨?_, hordered⟩, ?_⟩
        · intro item hitem
          change front ++ sourceOf s.gap ++ sourceOf s.body <+: item.before
          exact hgapSource ▸ (hitems item hitem).1
        · intro comment hcomment item hitem
          have hend := (hcomments comment hcomment).2.2
          obtain rfl | hitem := List.mem_cons.mp hitem
          · exact hend
          · exact (hend.trans hgapThrough).trans (hitems item hitem).1

/-- The items of sections, without the comments. -/
def sectionItems (front : Text) : List Section → List TopItem
  | [] => []
  | s :: sections => s.item front :: sectionItems (front ++ s.source) sections

theorem filter_commentsFrom (front : Text) (gap : List Marked) :
    (commentsFrom front gap).filter (·.kind.isSome) = [] := by
  rw [List.filter_eq_nil_iff]
  intro item hitem
  simp [((commentsFrom_spec front gap).1 item hitem).1]

theorem filter_itemsFrom (front : Text) (rest : List Marked) (sections : List Section) :
    (itemsFrom front rest sections).filter (·.kind.isSome) = sectionItems front sections := by
  induction sections generalizing front with
  | nil => exact filter_commentsFrom front rest
  | cons s sections ih =>
      rw [itemsFrom, List.filter_append, filter_commentsFrom, List.nil_append, List.filter_cons_of_pos rfl, ih]
      rfl

theorem Outline.properItems_eq (outline : Outline) : outline.properItems = sectionItems [] outline.sections :=
  filter_itemsFrom [] outline.rest outline.sections

theorem Outline.leadsWithClause_iff {outline : Outline} : outline.LeadsWithClause ↔
    ∃ clause others, outline.sections = clause :: others ∧ clause.kind = .packageClause := by
  rw [LeadsWithClause, properItems_eq]
  cases outline.sections with
  | nil => simp [sectionItems]
  | cons clause others => simp [sectionItems, Section.item]

theorem Outline.tail_properItems {outline : Outline} {clause : Section} {others : List Section}
    (hsections : outline.sections = clause :: others) :
    outline.properItems.tail = sectionItems clause.source others := by
  rw [properItems_eq, hsections]
  rfl

theorem forall_sectionItems {front : Text} {sections : List Section} :
    (∀ item ∈ sectionItems front sections, item.isDeclaration) ↔ ∀ s ∈ sections, s.kind.isDeclaration := by
  induction sections generalizing front with
  | nil => simp [sectionItems]
  | cons s sections ih =>
      rw [sectionItems, List.forall_mem_cons, List.forall_mem_cons, ih]
      rfl

theorem isMisplaced_eq {front : Text} {sections : List Section} {item : TopItem}
    (hitem : item ∈ sectionItems front sections) : item.isMisplaced = !item.isDeclaration := by
  induction sections generalizing front with
  | nil => cases hitem
  | cons s sections ih =>
      obtain rfl | hitem := List.mem_cons.mp hitem
      · unfold TopItem.isMisplaced TopItem.isDeclaration Section.item
        cases s.kind <;> rfl
      · exact ih hitem

theorem sectionItems_eq_append {front : Text} {sections : List Section} {left right : List TopItem} {item : TopItem}
    (hitems : sectionItems front sections = left ++ item :: right) :
    ∃ before s after, sections = before ++ s :: after ∧ left = sectionItems front before ∧
      item = s.item (front ++ before.flatMap Section.source) := by
  induction left generalizing front sections with
  | nil =>
      cases sections with
      | nil => cases hitems
      | cons s sections =>
          obtain ⟨rfl, -⟩ := List.cons.inj hitems
          exact ⟨[], s, sections, rfl, rfl, by simp⟩
  | cons first left ih =>
      cases sections with
      | nil => cases hitems
      | cons s sections =>
          obtain ⟨rfl, hlater⟩ := List.cons.inj hitems
          obtain ⟨before, last, after, rfl, rfl, rfl⟩ := ih hlater
          exact ⟨s :: before, last, after, rfl, rfl, by simp⟩

end Grammar

/-- The kind of the item that a declaration comes from. -/
def DeclarationKind.itemKind : DeclarationKind → ItemKind
  | .imports _ _ => .importDeclaration
  | .types _ => .typeDeclaration
  | .function _ => .functionDeclaration
  | .values _ => .valueDeclaration

theorem Structure.itemKind_kindOf {kind : ItemKind} (hdeclares : kind.isDeclaration) (marked : List Marked) :
    (Structure.kindOf kind marked).itemKind = kind := by
  cases kind <;> first
    | rfl
    | cases hdeclares

/-- Behind a text stand the declarations of the items, one for each: it has the kind of its item, and its text is that of
the item with what leads to it and what stays with it. -/
inductive Declares : Text → List TopItem → List Declaration → Prop where
  | nil {front : Text} : Declares front [] []
  | cons {front lead attached : Text} {item : TopItem} {declaration : Declaration} {items : List TopItem}
      {declarations : List Declaration} (hkind : item.kind = some declaration.kind.itemKind)
      (hbefore : item.before = front ++ lead) (htext : declaration.text = lead ++ (item.text ++ attached))
      (hothers : Declares (front ++ declaration.text) items declarations) :
      Declares front (item :: items) (declaration :: declarations)

namespace SourceFile

theorem declares_sectionItems {front : Text} {sections : List Section} {rest : List Marked}
    (hdeclares : ∀ s ∈ sections, s.kind.isDeclaration) :
    Declares (front ++ sourceOf (splitAttached (gapBefore sections rest)).1) (sectionItems front sections)
      ((withGaps sections rest).map fun (s, after) => declarationOf s after) := by
  induction sections generalizing front with
  | nil => exact .nil
  | cons s sections ih =>
      obtain ⟨hdeclared, hothers⟩ := List.forall_mem_cons.mp hdeclares
      have hgap := sourceOf_splitAttached s.gap
      have htext := declarationOf_text s (gapBefore sections rest)
      rw [withGaps_cons, List.map_cons, sectionItems]
      refine .cons (congrArg some (Structure.itemKind_kindOf hdeclared _).symm) ?_ htext ?_
      · change front ++ sourceOf s.gap = front ++ sourceOf (splitAttached s.gap).1 ++ _
        rw [List.append_assoc, hgap]
      · -- The next declaration begins behind what stays with this one.
        have hnext : front ++ sourceOf (splitAttached s.gap).1 ++ (declarationOf s (gapBefore sections rest)).text =
            front ++ s.source ++ sourceOf (splitAttached (gapBefore sections rest)).1 := by
          rw [htext, Section.source, ← hgap]
          simp only [List.append_assoc]
        exact hnext ▸ ih hothers

variable {outline : Outline}

theorem ofOutline_isOk_iff : (∃ file, ofOutline outline = .ok file) ↔
    outline.LeadsWithClause ∧ ∀ item ∈ outline.properItems.tail, item.isDeclaration := by
  simp only [Outline.leadsWithClause_iff, ofOutline_eq_ok]
  constructor
  · rintro ⟨_, clause, others, hsections, hclause, hdeclares, -⟩
    refine ⟨⟨clause, others, hsections, hclause⟩, ?_⟩
    rwa [Outline.tail_properItems hsections, forall_sectionItems]
  · rintro ⟨⟨clause, others, hsections, hclause⟩, hdeclares⟩
    rw [Outline.tail_properItems hsections, forall_sectionItems] at hdeclares
    exact ⟨_, clause, others, hsections, hclause, hdeclares, rfl⟩

theorem declares_of_ofOutline {file : SourceFile} (hfile : ofOutline outline = .ok file) :
    Declares file.header outline.properItems.tail file.declarations := by
  obtain ⟨clause, others, hsections, -, hdeclares, rfl⟩ := ofOutline_eq_ok.mp hfile
  rw [Outline.tail_properItems hsections]
  exact declares_sectionItems hdeclares

theorem ofOutline_missingPackage (hleads : ¬ outline.LeadsWithClause) :
    ofOutline outline = .error .missingPackage := by
  unfold ofOutline
  cases hsections : outline.sections with
  | nil => rfl
  | cons clause others =>
      apply if_pos
      intro hclause
      exact hleads (Outline.leadsWithClause_iff.mpr ⟨clause, others, hsections, hclause⟩)

theorem exists_misplaced (hdeclares : ¬ ∀ item ∈ outline.properItems.tail, item.isDeclaration) :
    ∃ item, outline.properItems.tail.find? TopItem.isMisplaced = some item := by
  rw [← Option.isSome_iff_exists, List.find?_isSome]
  push Not at hdeclares
  obtain ⟨item, hitem, hkind⟩ := hdeclares
  refine ⟨item, hitem, ?_⟩
  rw [Outline.properItems_eq] at hitem
  rw [isMisplaced_eq (List.mem_of_mem_tail hitem)]
  simpa using hkind

theorem ofOutline_misplaced {item : TopItem} (hleads : outline.LeadsWithClause)
    (hitem : outline.properItems.tail.find? TopItem.isMisplaced = some item) :
    ofOutline outline = .error (.grammar (some (.after item.before, Text.excerpt item.text))) := by
  obtain ⟨clause, others, hsections, hclause⟩ := Outline.leadsWithClause_iff.mp hleads
  rw [Outline.tail_properItems hsections] at hitem
  obtain ⟨hmisplaced, left, right, hitems, hleft⟩ := List.find?_eq_some_iff_append.mp hitem
  obtain ⟨declared, misplaced, later, rfl, rfl, rfl⟩ := sectionItems_eq_append hitems
  have hdeclares : ∀ s ∈ declared, s.kind.isDeclaration := by
    apply forall_sectionItems.mp
    intro item hmem
    have hplaced := hleft item hmem
    rwa [isMisplaced_eq hmem, Bool.not_not] at hplaced
  have hstops : ¬ misplaced.kind.isDeclaration := by
    rw [isMisplaced_eq (List.mem_of_find?_eq_some hitem)] at hmisplaced
    simpa [TopItem.isDeclaration, Section.item] using hmisplaced
  have hdeclared : (declared ++ misplaced :: later).takeWhile (·.kind.isDeclaration) = declared := by
    rw [List.takeWhile_append_of_pos hdeclares, List.takeWhile_cons_of_neg (by simpa using hstops), List.append_nil]
  unfold ofOutline
  rw [hsections]
  dsimp only
  rw [if_neg (not_not_intro hclause), hdeclared, List.drop_left]
  simp [Section.item]

/-- The text as it is read: with a newline at its end. -/
def ended (text : Text) : Text :=
  if text.getLast? = some '\n' then text else text ++ ['\n']

/-- The newline at the end changes no more of a file than its trailer. -/
theorem parseTerminated_ended (text : Text) :
    ∃ close : SourceFile → SourceFile,
      (∀ file, (close file).header = file.header ∧ (close file).declarations = file.declarations) ∧
        parseTerminated (ended text) = (parse text).map close := by
  by_cases hlast : text.getLast? = some '\n'
  · refine ⟨id, fun _ => ⟨rfl, rfl⟩, ?_⟩
    rw [ended, if_pos hlast, parse_eq_parseTerminated hlast]
    cases parseTerminated text <;> rfl
  · refine ⟨terminated, fun _ => ⟨rfl, rfl⟩, ?_⟩
    rw [ended, if_neg hlast, ← parse_append_newline hlast, parse_eq_parseTerminated List.getLast?_concat]

/-- A text that the grammar accepts is a file exactly when its items, comments aside, are one package clause and then
declarations, and the file has those declarations. A file without a leading clause is told so, and any other is refused
for its first item after the clause that is no declaration, at the point where that item starts. -/
theorem parse_item_order {text : Text} (houtline : outline.IsOutlineOf (ended text)) :
    ((∀ item ∈ outline.items, item.before ++ item.text <+: ended text) ∧ outline.items.Pairwise TopItem.Precedes) ∧
      ((∃ file, parse text = .ok file) ↔
        outline.LeadsWithClause ∧ ∀ item ∈ outline.properItems.tail, item.isDeclaration) ∧
      (∀ file, parse text = .ok file → Declares file.header outline.properItems.tail file.declarations) ∧
      (¬ outline.LeadsWithClause → parse text = .error .missingPackage) ∧
      (outline.LeadsWithClause → (¬ ∃ file, parse text = .ok file) →
        ∃ item, outline.properItems.tail.find? TopItem.isMisplaced = some item ∧
          parse text = .error (.grammar (some (.after item.before, Text.excerpt item.text)))) := by
  have hsome := Outline.isOutlineOf_iff.mp houtline
  obtain ⟨close, hclose, hended⟩ := parseTerminated_ended text
  have hfile : ofOutline outline = (parse text).map close := by
    rw [← hended, parseTerminated, hsome]
  have herror {error : ParseError} (hfails : ofOutline outline = .error error) : parse text = .error error := by
    rw [hfile] at hfails
    cases hparse : parse text with
    | error =>
        rw [hparse] at hfails
        exact hfails
    | ok =>
        rw [hparse] at hfails
        cases hfails
  have haccepts : (∃ file, parse text = .ok file) ↔
      outline.LeadsWithClause ∧ ∀ item ∈ outline.properItems.tail, item.isDeclaration := by
    rw [← ofOutline_isOk_iff, hfile]
    cases parse text <;> simp [Except.map]
  have hitems := itemsFrom_spec [] outline.rest outline.sections
  refine ⟨⟨?_, hitems.2⟩, haccepts, ?_, fun hleads => herror (ofOutline_missingPackage hleads), ?_⟩
  · intro item hitem
    have hend := (hitems.1 item hitem).2
    rwa [List.nil_append, source_of_outline? hsome] at hend
  · intro file hparse
    rw [hparse] at hfile
    have hdeclares := declares_of_ofOutline hfile
    rwa [(hclose file).1, (hclose file).2] at hdeclares
  · intro hleads hrefused
    obtain ⟨item, hitem⟩ := exists_misplaced fun hdeclares => hrefused (haccepts.mpr ⟨hleads, hdeclares⟩)
    exact ⟨item, hitem, herror (ofOutline_misplaced hleads hitem)⟩

theorem parse_item_order_statement :
    let text := "// a\npackage a // b\n\n/* c */ import \"d\"\n\n/* e */ x := 1\npackage f".toList
    ∃ outline : Outline, outline.IsOutlineOf (ended text) ∧ outline.LeadsWithClause ∧
      outline.properItems.tail.find? TopItem.isMisplaced =
        some ⟨some .statement, text.take 49, "x := 1".toList⟩ ∧
      parse text = .error (.grammar (some (⟨6, 9⟩, "x := 1".toList))) := by
  repeat rw [String.toList_ofList]
  intro text
  have hrun : (outline? (ended text)).any fun outline =>
      outline.properItems.head?.any (·.kind = some .packageClause) ∧
        outline.properItems.tail.find? TopItem.isMisplaced =
          some ⟨some .statement, text.take 49, "x := 1".toList⟩ := by
    decide
  obtain ⟨outline, hsome, hitems⟩ := (Option.any_eq_true ..).mp hrun
  obtain ⟨hfirst, hfound⟩ := of_decide_eq_true hitems
  obtain ⟨clause, hclause, hkind⟩ := (Option.any_eq_true ..).mp hfirst
  have houtline := Outline.isOutlineOf_iff.mpr hsome
  have hleads : outline.LeadsWithClause := ⟨clause, hclause, of_decide_eq_true hkind⟩
  refine ⟨outline, houtline, hleads, hfound, ?_⟩
  obtain ⟨-, haccepts, -, -, hrefuses⟩ := parse_item_order houtline
  have hrefused : ¬ ∃ file, parse text = .ok file := by
    intro hfile
    exact absurd ((haccepts.mp hfile).2 _ (List.mem_of_find?_eq_some hfound)) (by decide)
  obtain ⟨item, hitem, herror⟩ := hrefuses hleads hrefused
  obtain rfl := Option.some.inj (hitem.symm.trans hfound)
  exact herror.trans (by decide)

end SourceFile

end GoGraft
