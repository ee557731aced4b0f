import GoGraft.Proofs.EditSteps
import GoGraft.Proofs.Seams

/-!
# Edited files read as themselves

An edit reads the one declaration that it writes, behind a package clause of its own, and leaves it to its neighbours
whether the whole file can be read. It can exactly if each seam between two texts is clean: the text on its right begins
with a terminator or the text on its left has taken it, and no comment on the left runs on into the right. The seams of
a file that was read are clean, so an edit can only break those that it makes.
-/

namespace GoGraft

open Grammar Scan

namespace Declaration

/-- The machine is at `exit` after the declaration, and `last` is its last lexeme. -/
def EndsAt (declaration : Declaration) (exit : List Frame) (last : Lexeme) : Prop :=
  ∃ gap head rest tail frames final m, declaration.ReadAs gap head rest tail frames final ∧
    Reads (final ++ [.decl .itemEnd]) tail exit ∧ (head :: rest ++ tail).getLast? = some m ∧ m.lexeme = last

/-- The declaration can be read from a stack, behind a lexeme. -/
def Follows (declaration : Declaration) (stack : List Frame) (last : Lexeme) : Prop :=
  (∃ gap head rest tail frames final, IsGap stack gap ∧ declaration.ReadAs gap head rest tail frames final) ∧
    ∀ c ∈ declaration.text.head?, last.EndsBefore c

variable {declaration : Declaration} {gap rest tail : List Marked} {head : Marked} {frames final stack exit : List Frame}
  {last : Lexeme}

theorem ReadAs.behind {other : List Marked} (hread : declaration.ReadAs gap head rest tail frames final)
    (hpauses : Pauses stack) (hother : IsGap stack other)
    (hlexemes : other.map Marked.lexeme = gap.map Marked.lexeme) :
    declaration.ReadAs other head rest tail frames final := by
  have hsame : (other ++ head :: rest ++ tail).map Marked.lexeme = (gap ++ head :: rest ++ tail).map Marked.lexeme := by
    simp only [List.map_append, hlexemes]
  refine ⟨?_, ?_, hread.declares, hsame ▸ hread.cuts, ⟨stack, hpauses, hother⟩, hlexemes ▸ hread.gap_free, hread.item,
    hread.tail_read, hread.tail_loose, hread.tail_attached⟩
  · rw [hread.text_eq, ← source_map_lexeme, ← hsame, source_map_lexeme]
  · rw [hread.kind_eq]
    exact Structure.kindOf_congr _ hread.gap_loose hother.loose hlexemes.symm

theorem EndsAt.endsOn (hends : declaration.EndsAt exit last) : EndsOn (Scan.lexemes declaration.text) exit last := by
  obtain ⟨gap, head, rest, tail, frames, final, m, hread, htail, hlast, rfl⟩ := hends
  have hcut : m.lexeme.IsCut := by
    apply hread.cuts.isCut
    rw [List.append_assoc, List.map_append]
    exact List.mem_append_right _ (List.mem_map_of_mem (List.mem_of_getLast? hlast))
  rw [hread.lexemes]
  exact hread.item.endsOn hread.gap_loose hread.not_isLoose_head hread.tail_loose hread.tail_attached htail hlast hcut

/-- The machine reads a text in one way, whatever declaration it is the text of. -/
theorem ReadAs.same_reading {other : Declaration} {gap' rest' tail' : List Marked} {head' : Marked}
    {frames' final' exit' : List Frame} (hread : declaration.ReadAs gap head rest tail frames final)
    (hother : other.ReadAs gap' head' rest' tail' frames' final') (htext : other.text = declaration.text)
    (htail : Reads (final ++ [.decl .itemEnd]) tail exit) (htail' : Reads (final' ++ [.decl .itemEnd]) tail' exit') :
    gap'.map Marked.lexeme = gap.map Marked.lexeme ∧ head' :: rest' ++ tail' = head :: rest ++ tail ∧
      exit' = exit := by
  have hlexemes := hread.lexemes
  rw [List.append_assoc, List.map_append, List.cons_append, List.map_cons, ← htext] at hlexemes
  obtain ⟨hgap, hhead, hrest⟩ := hother.split_lexemes hlexemes hread.isLoose_gap hread.not_isLoose_head
  have hreads : Reads fileStack (head :: rest ++ tail) exit :=
    (Reads.step hread.head_opens hread.item.reads).append htail
  have hreads' : Reads fileStack (head' :: rest' ++ tail') exit' :=
    (Reads.step hother.head_opens hother.item.reads).append htail'
  have hsame : (head' :: rest' ++ tail').map Marked.lexeme = (head :: rest ++ tail).map Marked.lexeme ++ [] := by
    simp [hhead, hrest]
  obtain ⟨more, hmore, hnil, hlast⟩ := hreads.continue_from hreads' hsame
  obtain rfl := List.map_eq_nil_iff.mp hnil
  cases hlast
  exact ⟨hgap, by rw [hmore, List.append_nil], rfl⟩

theorem EndsAt.unique {exit' : List Frame} {last' : Lexeme} (hends : declaration.EndsAt exit last)
    (hother : declaration.EndsAt exit' last') : exit' = exit ∧ last' = last := by
  refine ⟨?_, Option.some.inj (hother.endsOn.last_eq.symm.trans hends.endsOn.last_eq)⟩
  obtain ⟨gap, head, rest, tail, frames, final, -, hread, htail, -, -⟩ := hends
  obtain ⟨gap', head', rest', tail', frames', final', -, hread', htail', -, -⟩ := hother
  exact (hread.same_reading hread' rfl htail htail').2.2

end Declaration

namespace HasHeader

variable {header package : Text} {gap rest tail : List Marked} {head : Marked} {frames final exit : List Frame}
  {last : Lexeme}

theorem not_isLoose_head (hheader : HasHeader header package gap head rest tail frames final exit last) :
    ¬ isLoose head.kind := by
  apply @Section.not_isLoose_head gap rest
  rw [hheader.clause]
  decide

theorem endsOn (hheader : HasHeader header package gap head rest tail frames final exit last) :
    EndsOn (Scan.file header) exit last := by
  obtain ⟨m, hlast, rfl⟩ := Option.map_eq_some_iff.mp hheader.last_eq
  have hfile := @hheader.file_eq [] nofun
  rw [List.append_nil] at hfile
  rw [hfile, show Scan.lexemes [] = [] from rfl, List.append_nil]
  exact hheader.item.endsOn hheader.gap_read.loose hheader.not_isLoose_head hheader.tail_loose hheader.tail_attached
    hheader.tail_read hlast hheader.last_cut

end HasHeader

/-- The seams of a row of declarations behind something else, each as its left and its right side. -/
def seamsFrom (left : Option Declaration) : List Declaration → List (Option Declaration × Option Declaration)
  | [] => [(left, none)]
  | declaration :: others => (left, some declaration) :: seamsFrom (some declaration) others

namespace SourceFile

/-- The seams of a file. Its first left side is the header and its last right side is what follows the last
declaration; these two are no declarations. -/
def seams (file : SourceFile) : List (Option Declaration × Option Declaration) :=
  seamsFrom none file.declarations

def leftLexemes (file : SourceFile) : Option Declaration → List Lexeme
  | none => Scan.file file.header
  | some declaration => Scan.lexemes declaration.text

def rightText (file : SourceFile) : Option Declaration → Text
  | none => file.ending
  | some declaration => declaration.text

/-- One of the two sides has the terminator between them; the right side may begin with a newline in any case. And the
right side begins with one where the left side ends in a comment that goes on to the end of the line. -/
def isClean (file : SourceFile) (seam : Option Declaration × Option Declaration) : Bool :=
  let left := file.leftLexemes seam.1
  let right := file.rightText seam.2
  let terminated :=
    match leadingTerminator? (Scan.lexemes right) with
    | some kind => kind = .newline || !isTerminated left
    | none => isTerminated left
  terminated && (right.head? = some '\n' || !endsInLineComment left)

theorem isClean_iff {file : SourceFile} {seam : Option Declaration × Option Declaration} :
    file.isClean seam ↔ CanFollow (file.leftLexemes seam.1) (Scan.lexemes (file.rightText seam.2)) := by
  have hline : (file.rightText seam.2).head? = some '\n' ∨ ¬ endsInLineComment (file.leftLexemes seam.1) ↔
      (decide ((file.rightText seam.2).head? = some '\n') || !endsInLineComment (file.leftLexemes seam.1)) := by
    simp
  constructor
  · intro hclean
    obtain ⟨hterminated, hends⟩ := Bool.and_eq_true_iff.mp hclean
    refine ⟨?_, ?_, by rw [source_lexemes]; exact hline.mpr hends⟩
    · intro kind hkind
      rw [Option.mem_def.mp hkind] at hterminated
      simpa using hterminated
    · intro hnone
      rwa [hnone] at hterminated
  · intro hfollow
    have hends := hfollow.line
    rw [source_lexemes] at hends
    refine Bool.and_eq_true_iff.mpr ⟨?_, hline.mp hends⟩
    split
    · rename_i kind hkind
      simpa using hfollow.once kind hkind
    · rename_i hnone
      exact hfollow.terminated hnone

end SourceFile

section Row

variable (exit : List Frame) (last : Lexeme) (ending : Text)

/-- The stack and the last lexeme that the left side of a seam leaves behind, where the header leaves the given ones. -/
def EndsLeft : Option Declaration → List Frame → Lexeme → Prop
  | none, stack, before => stack = exit ∧ before = last
  | some declaration, stack, before => declaration.EndsAt stack before

/-- The right side of a seam can be read behind its left side. -/
def FollowsRight : Option Declaration → List Frame → Lexeme → Prop
  | none, stack, before => Row stack before [] ending
  | some declaration, stack, before => declaration.Follows stack before

variable {exit last ending} {stack : List Frame} {before : Lexeme} {left : Option Declaration}
  {declarations : List Declaration}

theorem EndsLeft.unique {stack' : List Frame} {before' : Lexeme} (hends : EndsLeft exit last left stack before)
    (hother : EndsLeft exit last left stack' before') : stack' = stack ∧ before' = before := by
  cases left with
  | none =>
      obtain ⟨rfl, rfl⟩ := hends
      exact hother
  | some declaration => exact Declaration.EndsAt.unique hends hother

theorem EndsLeft.followsRight {right : Option Declaration} (hends : EndsLeft exit last left stack before)
    (hright : FollowsRight ending right stack before) :
    ∀ stack before, EndsLeft exit last left stack before → FollowsRight ending right stack before := by
  intro stack' before' hother
  obtain ⟨rfl, rfl⟩ := hends.unique hother
  exact hright

theorem row_of_seams (hends : EndsLeft exit last left stack before)
    (hseams : ∀ seam ∈ seamsFrom left declarations, ∀ stack before, EndsLeft exit last seam.1 stack before →
      FollowsRight ending seam.2 stack before) : Row stack before declarations ending := by
  induction declarations generalizing left stack before with
  | nil => exact hseams (left, none) (by simp [seamsFrom]) stack before hends
  | cons declaration others ih =>
      obtain ⟨hfirst, hothers⟩ := List.forall_mem_cons.mp hseams
      obtain ⟨⟨gap, head, rest, tail, frames, final, hgap, hread⟩, hbehind⟩ := hfirst stack before hends
      obtain ⟨exit, htail⟩ := hread.tail_read
      have hlast : (head :: rest ++ tail).getLast? = some _ := List.getLast?_eq_some_getLast (by simp)
      have hnext : declaration.EndsAt exit _ := ⟨gap, head, rest, tail, frames, final, _, hread, htail, hlast, rfl⟩
      exact .declaration hgap hread hbehind htail hlast (@ih _ _ (some declaration) hnext hothers)

theorem seams_of_row (hrow : Row stack before declarations ending) (hends : EndsLeft exit last left stack before) :
    ∀ seam ∈ seamsFrom left declarations, ∀ stack before, EndsLeft exit last seam.1 stack before →
      FollowsRight ending seam.2 stack before := by
  induction hrow generalizing left with
  | trailer hgap hfree hcuts hbehind =>
      intro seam hseam
      obtain rfl := List.mem_singleton.mp hseam
      exact hends.followsRight (Row.trailer hgap hfree hcuts hbehind)
  | @declaration _ exit _ _ _ first _ _ _ _ m _ _ hgap hread hbehind htail hlast hrow ih =>
      have hfirst : first.Follows _ _ := ⟨⟨_, _, _, _, _, _, hgap, hread⟩, hbehind⟩
      have hnext : first.EndsAt exit m.lexeme := ⟨_, _, _, _, _, _, m, hread, htail, hlast, rfl⟩
      exact List.forall_mem_cons.mpr ⟨@EndsLeft.followsRight _ _ _ _ _ _ (some first) hends hfirst,
        @ih (some first) hnext⟩

end Row

section Clean

variable {lexemes : List Lexeme} {last : Lexeme} {stack : List Frame}

theorem Declaration.follows_of_canFollow {declaration : Declaration} (hends : EndsOn lexemes stack last)
    (hfollow : CanFollow lexemes (Scan.lexemes declaration.text)) (hread : declaration.IsRead) :
    declaration.Follows stack last := by
  obtain ⟨gap, head, rest, tail, frames, final, hread⟩ := hread
  obtain ⟨start, hpauses, hgap⟩ := hread.gap_read
  have hright := hread.lexemes
  rw [List.append_assoc, List.map_append] at hright
  have hhead : ∀ lexeme ∈ ((head :: rest ++ tail).map Marked.lexeme).head?, ¬ isLoose lexeme.kind := by
    rintro _ ⟨⟩
    exact hread.not_isLoose_head
  obtain ⟨other, hlexemes, hother⟩ := hfollow.exists_gap hends hpauses hgap hread.gap_free hright hhead
  have hbehind := hfollow.endsBefore hends (cuts_lexemes _)
  rw [source_lexemes] at hbehind
  exact ⟨⟨other, head, rest, tail, frames, final, hother, hread.behind hends.pauses hother hlexemes⟩, hbehind⟩

theorem Declaration.Follows.canFollow {declaration : Declaration} (hfollows : declaration.Follows stack last)
    (hends : EndsOn lexemes stack last) : CanFollow lexemes (Scan.lexemes declaration.text) := by
  obtain ⟨⟨gap, head, rest, tail, frames, final, hgap, hread⟩, hbehind⟩ := hfollows
  have hright := hread.lexemes
  rw [List.append_assoc, List.map_append] at hright
  refine .of_gap hends hgap hread.gap_free hright ?_ (by rwa [source_lexemes]) fun _ => ?_
  · rintro _ ⟨⟩
    exact hread.not_isLoose_head
  · rw [source_lexemes]
    exact hread.text_ne_nil

theorem Declaration.IsRead.exists_endsAt {declaration : Declaration} (hread : declaration.IsRead) :
    ∃ exit last, declaration.EndsAt exit last := by
  obtain ⟨gap, head, rest, tail, frames, final, hread⟩ := hread
  obtain ⟨exit, htail⟩ := hread.tail_read
  have hlast : (head :: rest ++ tail).getLast? = some _ := List.getLast?_eq_some_getLast (by simp)
  exact ⟨exit, _, gap, head, rest, tail, frames, final, _, hread, htail, hlast, rfl⟩

theorem Row.canFollow {ending : Text} (hrow : Row stack last [] ending) (hends : EndsOn lexemes stack last)
    (hline : last.isLineComment → ending ≠ []) : CanFollow lexemes (Scan.lexemes ending) := by
  cases hrow with
  | @trailer _ _ rest hgap hfree hcuts hbehind =>
      have hright : Scan.lexemes (sourceOf rest) = rest.map Marked.lexeme ++ [] := by
        rw [← source_map_lexeme, lexemes_source hcuts, List.append_nil]
      exact .of_gap hends hgap hfree hright nofun (by rwa [source_lexemes]) (by rwa [source_lexemes])

/-- A text that can follow some declaration as the end of a file. -/
def IsTrailer (text : Text) : Prop :=
  ∃ start rest, Pauses start ∧ IsGap start rest ∧ isFree (rest.map Marked.lexeme) ∧
    Cuts (rest.map Marked.lexeme) none ∧ sourceOf rest = text

theorem IsTrailer.row {text : Text} (htrailer : IsTrailer text) (hends : EndsOn lexemes stack last)
    (hfollow : CanFollow lexemes (Scan.lexemes text)) : Row stack last [] text := by
  obtain ⟨start, rest, hpauses, hgap, hfree, hcuts, rfl⟩ := htrailer
  have hright : Scan.lexemes (sourceOf rest) = rest.map Marked.lexeme ++ [] := by
    rw [← source_map_lexeme, lexemes_source hcuts, List.append_nil]
  obtain ⟨other, hlexemes, hother⟩ := hfollow.exists_gap hends hpauses hgap hfree hright nofun
  have hbehind := hfollow.endsBefore hends (cuts_lexemes _)
  have hsource : sourceOf other = sourceOf rest := by
    rw [← source_map_lexeme, hlexemes, source_map_lexeme]
  rw [source_lexemes, ← hsource] at hbehind
  rw [← hlexemes] at hfree hcuts
  exact hsource ▸ .trailer hother hfree hcuts hbehind

theorem Row.isTrailer {declarations : List Declaration} {ending : Text} (hrow : Row stack last declarations ending)
    (hpauses : Pauses stack) : IsTrailer ending := by
  induction hrow with
  | trailer hgap hfree hcuts _ => exact ⟨_, _, hpauses, hgap, hfree, hcuts, rfl⟩
  | declaration _ hread _ htail _ _ ih =>
      exact ih ((Pauses.after_item hread.item.final_below hread.item.ends).through hread.tail_loose htail)

theorem isTrailer_nil : IsTrailer [] :=
  ⟨fileStack, [], .inl rfl, ⟨List.forall_mem_nil _, .refl _⟩, rfl, trivial, rfl⟩

theorem isTrailer_newline : IsTrailer ['\n'] :=
  ⟨fileStack, [⟨⟨.newline, ['\n']⟩, .trivia⟩], .inl rfl,
    ⟨by simp [Marked.IsLoose, Marked.kind, isLoose], .step rfl (.refl _)⟩, rfl, ⟨⟨_, rfl, rfl⟩, nofun, trivial⟩, rfl⟩

end Clean

namespace SourceFile

variable {file final : SourceFile}

theorem mem_of_mem_seamsFrom {start : Option Declaration} {declarations : List Declaration}
    {seam : Option Declaration × Option Declaration} {declaration : Declaration}
    (hseam : seam ∈ seamsFrom start declarations) :
    (seam.1 = some declaration → seam.1 = start ∨ declaration ∈ declarations) ∧
      (seam.2 = some declaration → declaration ∈ declarations) := by
  induction declarations generalizing start with
  | nil =>
      obtain rfl := List.mem_singleton.mp hseam
      exact ⟨fun _ => .inl rfl, nofun⟩
  | cons first others ih =>
      obtain rfl | hothers := List.mem_cons.mp hseam
      · refine ⟨fun _ => .inl rfl, ?_⟩
        rintro ⟨⟩
        exact List.mem_cons_self
      · obtain ⟨hleft, hright⟩ := ih hothers
        refine ⟨fun hsome => .inr ?_, fun hsome => List.mem_cons_of_mem first (hright hsome)⟩
        obtain hfirst | hmem := hleft hsome
        · obtain rfl := Option.some.inj (hsome.symm.trans hfirst)
          exact List.mem_cons_self
        · exact List.mem_cons_of_mem first hmem

theorem mem_seamsFrom_none {left start : Option Declaration} {declarations : List Declaration}
    (hseam : (left, none) ∈ seamsFrom start declarations) : left = declarations.getLast?.or start := by
  induction declarations generalizing start with
  | nil => simpa [seamsFrom] using hseam
  | cons declaration others ih =>
      have hothers : (left, none) ∈ seamsFrom (some declaration) others := by simpa [seamsFrom] using hseam
      rw [ih hothers, List.getLast?_cons]
      cases others.getLast? <;> rfl

theorem getLast?_render (hread : file.IsRead) :
    file.render.getLast? =
      file.trailer.getLast?.or (Lexeme.source (file.leftLexemes file.declarations.getLast?)).getLast? := by
  unfold render
  rw [List.getLast?_append]
  congr 1
  cases hlast : file.declarations.getLast? with
  | none => simp [leftLexemes, source_file, List.getLast?_eq_none_iff.mp hlast]
  | some declaration =>
      obtain ⟨front, hfront⟩ := List.getLast?_eq_some_iff.mp hlast
      obtain ⟨_, _, _, _, _, _, hlast⟩ := hread declaration (hfront ▸ by simp)
      have htext := List.getLast?_eq_some_getLast hlast.text_ne_nil
      rw [hfront, List.flatMap_append, ← List.append_assoc, List.getLast?_append]
      simp [leftLexemes, source_lexemes, htext]

theorem isTrailer_ending (hread : file.IsRead) (hfinal : final.IsRead) (htrailer : final.trailer = file.trailer)
    (hending : IsTrailer file.ending) : IsTrailer final.ending := by
  cases hlast : file.trailer.getLast? with
  | none =>
      have hnil : final.trailer = [] := htrailer.trans (List.getLast?_eq_none_iff.mp hlast)
      unfold ending
      rw [hnil]
      split
      · exact isTrailer_nil
      · exact isTrailer_newline
  | some c =>
      have hrender : final.render.getLast? = file.render.getLast? := by
        rw [getLast?_render hread, getLast?_render hfinal, htrailer, hlast, Option.some_or, Option.some_or]
      unfold ending at hending ⊢
      rwa [hrender, htrailer]

/-- What follows a line comment at the end of a file is not empty: there is a newline at least. -/
theorem ending_ne_nil {stack : List Frame} {last : Lexeme} (hread : file.IsRead)
    (hends : EndsOn (file.leftLexemes file.declarations.getLast?) stack last) (hline : last.isLineComment) :
    file.ending ≠ [] := by
  unfold ending
  split
  · rename_i hnewline
    intro hnil
    rw [getLast?_render hread, hnil, List.getLast?_nil, Option.none_or,
      Lexeme.getLast?_source hends.last_eq hends.cut.text_ne_nil] at hnewline
    exact Lexeme.newline_not_mem_of_isLineComment hline (List.mem_of_getLast? hnewline)
  · simp

theorem endsOn_of_endsLeft {gap rest tail : List Marked} {head : Marked} {frames ground exit stack : List Frame}
    {last before : Lexeme} {left : Option Declaration}
    (hheader : HasHeader file.header file.package gap head rest tail frames ground exit last)
    (hends : EndsLeft exit last left stack before) : EndsOn (file.leftLexemes left) stack before := by
  cases left with
  | none =>
      obtain ⟨rfl, rfl⟩ := hends
      exact hheader.endsOn
  | some declaration => exact Declaration.EndsAt.endsOn hends

theorem isClean_of_parse {text : Text} (hparse : parse text = .ok file) : ∀ seam ∈ file.seams, file.isClean seam := by
  have hread := isRead_of_parse hparse
  obtain ⟨gap, head, rest, tail, frames, ground, exit, last, hhas, hrow⟩ := exists_row_of_parse hparse
  have hseams := @seams_of_row exit last _ _ _ none _ hrow ⟨rfl, rfl⟩
  rintro ⟨left, right⟩ hseam
  obtain ⟨stack, before, hends⟩ : ∃ stack before, EndsLeft exit last left stack before := by
    cases left with
    | none => exact ⟨exit, last, rfl, rfl⟩
    | some declaration =>
        obtain hstart | hmem := (mem_of_mem_seamsFrom hseam).1 rfl
        · cases hstart
        · exact (hread declaration hmem).exists_endsAt
  have hleft := endsOn_of_endsLeft hhas hends
  have hfollows := hseams _ hseam stack before hends
  apply isClean_iff.mpr
  cases right with
  | some declaration => exact Declaration.Follows.canFollow hfollows hleft
  | none =>
      refine Row.canFollow hfollows hleft fun hline => ?_
      have hlast := mem_seamsFrom_none hseam
      rw [Option.or_none] at hlast
      exact ending_ne_nil hread (hlast ▸ hleft) hline

/-- A file that has its header and its trailer from one that was read reads as itself exactly if its seams are clean. -/
theorem parse_render_iff {text : Text} (hparse : parse text = .ok file) (hheader : final.header = file.header)
    (hpackage : final.package = file.package) (htrailer : final.trailer = file.trailer) (hfinal : final.IsRead) :
    parse final.render = .ok final ↔ ∀ seam ∈ final.seams, final.isClean seam := by
  refine ⟨isClean_of_parse, fun hseams => ?_⟩
  obtain ⟨gap, head, rest, tail, frames, ground, exit, last, hhas, hrow⟩ := exists_row_of_parse hparse
  rw [← hheader, ← hpackage] at hhas
  have hstart : EndsLeft exit last none exit last := ⟨rfl, rfl⟩
  refine parse_of_row hhas (row_of_seams hstart ?_)
  rintro ⟨left, right⟩ hseam stack before hends
  have hleft := endsOn_of_endsLeft hhas hends
  have hfollow := isClean_iff.mp (hseams _ hseam)
  cases right with
  | some declaration =>
      have hmem : declaration ∈ final.declarations := (mem_of_mem_seamsFrom hseam).2 rfl
      exact Declaration.follows_of_canFollow hleft hfollow (hfinal declaration hmem)
  | none =>
      have hending := hrow.isTrailer hhas.endsOn.pauses
      exact (isTrailer_ending (isRead_of_parse hparse) hfinal htrailer hending).row hleft hfollow

theorem edited_kept {changes : List Change} (hedited : Edited changes file final) (hread : file.IsRead) :
    (final.header = file.header ∧ final.package = file.package ∧ final.trailer = file.trailer) ∧ final.IsRead := by
  cases hedited with
  | insert index hnew =>
      refine ⟨⟨rfl, rfl, rfl⟩, isRead_insert index hread ?_⟩
      cases hnew with
      | type _ _ hparse => exact (Declaration.isRead_of_parse hparse).1
      | imports _ _ _ hparse => exact (Declaration.isRead_of_parse hparse).1
  | replace _ hrewritten =>
      refine ⟨⟨rfl, rfl, rfl⟩, isRead_replace _ hread ?_⟩
      cases hrewritten with
      | field _ _ _ _ _ hparse => exact (Declaration.isRead_of_parse hparse).1
      | imports _ _ _ _ _ hparse => exact (Declaration.isRead_of_parse hparse).1

/-- Edits keep what stands around the declarations, and each declaration is one that can be read. -/
theorem edits_kept {changes : List Change} (hedits : Relation.ReflTransGen (Edited changes) file final)
    (hread : file.IsRead) :
    (final.header = file.header ∧ final.package = file.package ∧ final.trailer = file.trailer) ∧ final.IsRead := by
  induction hedits with
  | refl => exact ⟨⟨rfl, rfl, rfl⟩, hread⟩
  | tail _ hedited ih =>
      obtain ⟨⟨hheader, hpackage, htrailer⟩, hmiddle⟩ := ih
      obtain ⟨⟨hheader', hpackage', htrailer'⟩, hfinal⟩ := edited_kept hedited hmiddle
      exact ⟨⟨hheader'.trans hheader, hpackage'.trans hpackage, htrailer'.trans htrailer⟩, hfinal⟩

theorem leads_kept {changes : List Change} (hleads : Leads file changes final) (hread : file.IsRead) :
    (final.header = file.header ∧ final.package = file.package ∧ final.trailer = file.trailer) ∧ final.IsRead :=
  edits_kept hleads.edited hread

/-- Writing fails for a text that cannot be read only where the session's own text cannot be. -/
theorem write_ne_unparsed {session : Session} {refusals : Refusals} {store after : Store} {path : Text}
    {error : ParseError} (hparse : parse session.file.render = .ok final) :
    session.write refusals store ≠ ⟨after, .error (.unparsed path error)⟩ := by
  intro hwrite
  obtain ⟨-, ⟨cause, hfails, -⟩ | ⟨violations, hcause⟩ | ⟨cause, hcause⟩⟩ := Session.write_eq_error hwrite
  · rw [Session.render, hparse] at hfails
    cases hfails
  · cases hcause
  · cases hcause

/-- An edited file reads as itself, with every declaration as it was edited, exactly if its seams are clean. Then
writing it does not fail for a text that cannot be read. -/
theorem parse_render_of_applyAll {text : Text} {changes : List Change} {settings : Settings} {report : Report}
    (hparse : parse text = .ok file) (happly : file.applyAll changes settings = ⟨final, .ok report⟩) :
    (parse final.render = .ok final ↔ ∀ seam ∈ final.seams, final.isClean seam) ∧
      ((∀ seam ∈ final.seams, final.isClean seam) → ∀ session : Session, session.file = final →
        ∀ refusals store after path error,
          session.write refusals store ≠ ⟨after, .error (.unparsed path error)⟩) := by
  obtain ⟨⟨hheader, hpackage, htrailer⟩, hfinal⟩ :=
    leads_kept (leads_of_performAll (applyAll_eq_ok happly)) (isRead_of_parse hparse)
  have hrender := parse_render_iff hparse hheader hpackage htrailer hfinal
  refine ⟨hrender, ?_⟩
  rintro hclean session rfl refusals store after path error
  exact write_ne_unparsed (hrender.mpr hclean)

theorem parse_render_of_applyAll_one_line :
    let text := "package a // a\n\ntype A int; type B struct \x7b\x7d; /* b */ type C int // c\n".toList
    let field : Change := .addField ['B'] ⟨['T'], .qualified "time".toList "Time".toList, none, none⟩
    let type (name : Text) : Change := .addType (.record ['N']) (.after name)
    (∃ file final report, parse text = .ok file ∧ file.applyAll [field, type ['A']] .standard = ⟨final, .ok report⟩ ∧
      report.applied = 2 ∧ parse final.render = .ok final) ∧
    ∃ file final report, parse text = .ok file ∧ file.applyAll [type ['B']] .standard = ⟨final, .ok report⟩ ∧
      report.applied = 1 ∧ parse final.render ≠ .ok final := by
  repeat rw [String.toList_ofList]
  intro text field type
  have hrun (changes : List Change) (applied : Nat) (clean : Bool)
      (hrun : ((parse text).toOption.bind fun file =>
        (file.applyAll changes .standard).toOption.map fun result =>
          (result.2.applied, decide (∀ seam ∈ result.1.seams, result.1.isClean seam))) = some (applied, clean)) :
      ∃ file final report, parse text = .ok file ∧ file.applyAll changes .standard = ⟨final, .ok report⟩ ∧
        report.applied = applied ∧ (parse final.render = .ok final ↔ clean) := by
    obtain ⟨file, hfile, hrun⟩ := Option.bind_eq_some_iff.mp hrun
    obtain ⟨⟨final, report⟩, hfinal, hrun⟩ := Option.map_eq_some_iff.mp hrun
    obtain ⟨happlied, rfl⟩ := Prod.mk.inj hrun
    have hparse := eq_ok_of_toOption hfile
    have happly := Attempt.eq_of_toOption hfinal
    refine ⟨file, final, report, hparse, happly, happlied, ?_⟩
    rw [decide_eq_true_eq]
    exact (parse_render_of_applyAll hparse happly).1
  constructor
  · obtain ⟨file, final, report, hparse, happly, happlied, hrender⟩ :=
      hrun [field, type ['A']] 2 true (by decide +kernel)
    exact ⟨file, final, report, hparse, happly, happlied, hrender.mpr rfl⟩
  · obtain ⟨file, final, report, hparse, happly, happlied, hrender⟩ := hrun [type ['B']] 1 false (by decide +kernel)
    exact ⟨file, final, report, hparse, happly, happlied, fun hsame => nomatch hrender.mp hsame⟩

end SourceFile

end GoGraft
