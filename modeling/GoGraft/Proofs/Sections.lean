import GoGraft.Proofs.Lossless
import GoGraft.Proofs.Stacks

/-!
# Items and what stands between them

The outline cuts a file by the roles of its lexemes. Along the run of the machine this cuts it into a chain of items,
each read from its first lexeme on as if it stood alone, and gaps of white space, comments and terminators. The outline
of a chain is the chain.
-/

namespace GoGraft

namespace Grammar

/-- Kinds of lexemes that can stand between items. -/
def isLoose : LexemeKind → Bool
  | .blank | .newline | .comment | .mark .semicolon | .mark .zero => true
  | _ => false

theorem isLoose_of_isTerminator {kind : LexemeKind} (hterminator : isTerminator kind) :
    isLoose kind := by
  unfold isTerminator at hterminator
  split at hterminator
  all_goals first
    | rfl
    | cases hterminator

theorem isLoose_cases {kind : LexemeKind} (hloose : isLoose kind) :
    kind = .blank ∨ kind = .comment ∨ isTerminator kind := by
  unfold isLoose at hloose
  split at hloose
  case h_1 => exact .inl rfl
  case h_3 => exact .inr (.inl rfl)
  case h_6 => cases hloose
  all_goals exact .inr (.inr rfl)

/-- A lexeme between items. -/
def Marked.IsLoose (marked : Marked) : Prop :=
  (marked.role = .trivia ∨ marked.role = .ending) ∧ isLoose marked.kind

theorem Frame.leave_at_newline {frame : Frame} {reading : Reading} {terminator : LexemeKind}
    (hterminator : isTerminator terminator) (hleave : frame.move terminator = .leave reading) :
    frame.move .newline = .leave reading := by
  by_cases hframe : frame.awaitsStatement
  · unfold isTerminator at hterminator
    split at hterminator
    case h_1 => exact hleave
    case h_4 => cases hterminator
    all_goals
      obtain rfl | rfl | rfl := frame.eq_of_awaitsStatement hframe
      · first
          | exact hleave
          | cases hleave
      · cases hleave
      · cases hleave
  · exact (frame.leave_iff hframe (.inl hterminator)).mp hleave

theorem Leaves.at_newline {upper : List Frame} {terminator : LexemeKind}
    (hterminator : isTerminator terminator) (hleaves : Leaves terminator upper) :
    Leaves .newline upper := by
  induction hleaves with
  | nil => exact .nil
  | last hleave => exact .last (Frame.leave_at_newline hterminator hleave)
  | down hleave hresume _ ih => exact .down (Frame.leave_at_newline hterminator hleave) hresume ih

/-- The lexemes from a stack to where an item can begin. -/
structure IsGap (stack : List Frame) (gap : List Marked) : Prop where
  loose : ∀ marked ∈ gap, marked.IsLoose
  reads : Reads stack gap fileStack

/-- An item, from the lexeme that opens it to the last one that belongs to it: a run on the frames that the first
lexeme calls for, up to a stack that can end. -/
structure IsItem (head : Marked) (rest : List Marked) (frames final : List Frame) : Prop where
  opens : advance fileStack head.kind = some (head.role, frames ++ [.decl .itemEnd])
  level : head.role.level ≤ 4
  below : Below 4 frames
  inner : Reads frames rest final
  reads : Reads (frames ++ [.decl .itemEnd]) rest (final ++ [.decl .itemEnd])
  last : ∀ marked ∈ rest.getLast?, marked.role.level ≤ 4
  ends : Leaves .newline final

theorem IsItem.final_below {head : Marked} {rest : List Marked} {frames final : List Frame}
    (hitem : IsItem head rest frames final) : Below 4 final :=
  (hitem.inner.level_le hitem.below).1

theorem IsItem.last_level {head last : Marked} {rest : List Marked} {frames final : List Frame}
    (hitem : IsItem head rest frames final) (hlast : (head :: rest).getLast? = some last) : last.role.level ≤ 4 := by
  rw [List.getLast?_cons] at hlast
  obtain rfl := Option.some.inj hlast
  cases hrest : rest.getLast? with
  | none => exact hitem.level
  | some last => exact hitem.last last hrest

/-- Sections and what follows them, read one after the other. -/
inductive Chain : List Frame → List Section → List Marked → Prop where
  | rest {stack : List Frame} {rest : List Marked} (hrest : IsGap stack rest) : Chain stack [] rest
  | item {stack frames final : List Frame} {gap body rest : List Marked} {head : Marked}
      {sections : List Section} (hgap : IsGap stack gap) (hitem : IsItem head body frames final)
      (hchain : Chain (final ++ [.decl .itemEnd]) sections rest) :
      Chain stack (⟨gap, head :: body⟩ :: sections) rest

theorem isFloor_itemEnd : (Frame.decl .itemEnd).IsFloor where
  resume reading := rfl
  refuse {mark left right} hhalves := by
    cases mark <;> cases hhalves <;> exact ⟨rfl, rfl⟩

theorem read_itemEnd {kind : LexemeKind} {role : Role} {next : List Frame}
    (hread : read [.decl .itemEnd] kind = some (role, next)) :
    role = .ending ∧ next = fileStack ∧ isTerminator kind := by
  simp only [read, settle, Frame.move, DeclFrame.move] at hread
  split at hread
  case h_1 hmove =>
    split at hmove
    · rename_i hterminator
      cases hmove
      cases hread
      exact ⟨rfl, rfl, hterminator⟩
    · cases hmove
  all_goals cases hread

theorem read_items {kind : LexemeKind} {role : Role} {next : List Frame}
    (hread : read fileStack kind = some (role, next)) :
    role.level ≤ 4 ∧ ∃ frames, Below 4 frames ∧ next = frames ++ [.decl .itemEnd] := by
  obtain ⟨frame, bottom, pushed, hsettles, hmove, rfl⟩ := read_eq_some_iff.mp hread
  cases hsettles
  simp only [Frame.move, DeclFrame.move] at hmove
  cases hstart : startItem kind with
  | none =>
      rw [hstart] at hmove
      cases hmove
  | some frames =>
      rw [hstart] at hmove
      cases hmove
      exact ⟨by decide, frames, below_startItem hstart, by simp⟩

/-- A lexeme at the start of a file or after an item is loose or opens an item. -/
theorem advance_fileStack {kind : LexemeKind} {role : Role} {next : List Frame}
    (hadvance : advance fileStack kind = some (role, next)) :
    (role = .trivia ∧ next = fileStack ∧ isLoose kind) ∨
      (role.level ≤ 4 ∧ ∃ frames, Below 4 frames ∧ next = frames ++ [.decl .itemEnd]) := by
  obtain ⟨rfl, rfl, hkind⟩ | hread | ⟨mark, left, right, first, middle, -, hhalves, hleft, hright⟩ :=
    advance_cases hadvance
  · refine .inl ⟨rfl, rfl, ?_⟩
    obtain rfl | rfl | rfl := hkind <;> rfl
  · exact .inr (read_items hread)
  · obtain ⟨-, frames, hframes, rfl⟩ := read_items hleft
    obtain ⟨rest, hrest, rfl⟩ | ⟨-, hread⟩ := read_append isFloor_itemEnd.resume hright
    · obtain ⟨hrole, hbelow⟩ := read_below hrest hframes
      exact .inr ⟨hrole, rest, hbelow, rfl⟩
    · obtain ⟨-, -, hterminator⟩ := read_itemEnd hread
      cases mark <;> cases hhalves <;> cases hterminator

/-- A lexeme inside an item is loose, belongs to the item, or ends it. -/
theorem advance_item {kind : LexemeKind} {role : Role} {upper next : List Frame}
    (hbelow : Below 4 upper)
    (hadvance : advance (upper ++ [.decl .itemEnd]) kind = some (role, next)) :
    (∃ rest, Below 4 rest ∧ next = rest ++ [.decl .itemEnd] ∧
        advance upper kind = some (role, rest) ∧
        ((role = .trivia ∧ rest = upper ∧ isLoose kind) ∨ role.level ≤ 4)) ∨
      (role = .ending ∧ next = fileStack ∧ isTerminator kind ∧ Leaves kind upper) := by
  obtain ⟨rest, hupper, rfl⟩ | ⟨hleaves, hread⟩ := advance_append isFloor_itemEnd hadvance
  · obtain ⟨hrole, hrest⟩ := advance_below hupper hbelow
    refine .inl ⟨rest, hrest, rfl, hupper, ?_⟩
    obtain ⟨rfl, rfl⟩ | hrole := hrole
    · obtain ⟨-, hkind⟩ := advance_trivia hupper (hbelow.mono (by decide))
      refine .inl ⟨rfl, rfl, ?_⟩
      obtain rfl | rfl | rfl := hkind <;> rfl
    · exact .inr hrole
  · obtain ⟨hrole, hnext, hterminator⟩ := read_itemEnd hread
    exact .inr ⟨hrole, hnext, hterminator, hleaves⟩

theorem IsGap.cons {stack next : List Frame} {marked : Marked} {gap : List Marked}
    (hloose : marked.IsLoose) (hadvance : advance stack marked.kind = some (marked.role, next))
    (hgap : IsGap next gap) : IsGap stack (marked :: gap) :=
  ⟨List.forall_mem_cons.mpr ⟨hloose, hgap.loose⟩, .step hadvance hgap.reads⟩

theorem Marked.IsLoose.not_level {marked : Marked} (hloose : marked.IsLoose) : ¬ marked.role.level ≤ 4 := by
  obtain ⟨hrole | hrole, -⟩ := hloose <;> simp [hrole, Role.level]

theorem ne_fileStack (upper : List Frame) : fileStack ≠ upper ++ [.decl .itemEnd] := by
  intro hstack
  have hlast := congrArg List.getLast? hstack
  simp [fileStack] at hlast

namespace Chain

variable {stack next : List Frame} {sections : List Section} {rest : List Marked}

theorem cons_loose {marked : Marked} (hloose : marked.IsLoose)
    (hadvance : advance stack marked.kind = some (marked.role, next)) (hchain : Chain next sections rest) :
    ∃ sections' rest', Chain stack sections' rest' ∧
      (Outline.mk sections' rest').marked = marked :: (Outline.mk sections rest).marked := by
  cases hchain with
  | rest hrest => exact ⟨[], marked :: rest, .rest (hrest.cons hloose hadvance), rfl⟩
  | @item _ _ _ gap body _ head _ hgap hitem hchain =>
      exact ⟨⟨marked :: gap, head :: body⟩ :: _, rest, .item (hgap.cons hloose hadvance) hitem hchain,
        by simp [Outline.marked]⟩

theorem reads (hchain : Chain stack sections rest) :
    Reads stack (Outline.mk sections rest).marked fileStack := by
  induction hchain with
  | rest hrest => simpa [Outline.marked] using hrest.reads
  | item hgap hitem _ ih =>
      have hreads := hgap.reads.append ((Reads.step hitem.opens hitem.reads).append ih)
      simpa [Outline.marked] using hreads

end Chain

/-- The lexemes from inside an item on: those that still belong to it, and a chain. -/
def ClosesItem (upper : List Frame) (marked : List Marked) : Prop :=
  ∃ inside final sections rest, Reads upper inside final ∧
    Reads (upper ++ [.decl .itemEnd]) inside (final ++ [.decl .itemEnd]) ∧
    (∀ m ∈ inside.getLast?, m.role.level ≤ 4) ∧ Leaves .newline final ∧
    Chain (final ++ [.decl .itemEnd]) sections rest ∧ inside ++ (Outline.mk sections rest).marked = marked

theorem ClosesItem.cons_inner {upper next : List Frame} {m : Marked} {marked : List Marked}
    (hupper : advance upper m.kind = some (m.role, next))
    (hadvance : advance (upper ++ [.decl .itemEnd]) m.kind = some (m.role, next ++ [.decl .itemEnd]))
    (hrole : m.role.level ≤ 4) (hcloses : ClosesItem next marked) : ClosesItem upper (m :: marked) := by
  obtain ⟨inside, final, sections, rest, hinner, hreads, hlast, hends, hchain, rfl⟩ := hcloses
  refine ⟨m :: inside, final, sections, rest, .step hupper hinner, .step hadvance hreads, ?_, hends, hchain, rfl⟩
  cases inside with
  | nil => simpa using hrole
  | cons => simpa using hlast

theorem ClosesItem.cons_trivia {upper : List Frame} {m : Marked} {marked : List Marked}
    (hupper : advance upper m.kind = some (m.role, upper))
    (hadvance : advance (upper ++ [.decl .itemEnd]) m.kind = some (m.role, upper ++ [.decl .itemEnd]))
    (hloose : m.IsLoose) (hcloses : ClosesItem upper marked) : ClosesItem upper (m :: marked) := by
  obtain ⟨inside, final, sections, rest, hinner, hreads, hlast, hends, hchain, rfl⟩ := hcloses
  cases inside with
  | nil =>
      cases hinner
      obtain ⟨sections', rest', hchain', hmarked⟩ := hchain.cons_loose hloose hadvance
      exact ⟨[], upper, sections', rest', .refl _, .refl _, by simp, hends, hchain', hmarked⟩
  | cons => exact ⟨m :: _, final, sections, rest, .step hupper hinner, .step hadvance hreads, by simpa using hlast,
      hends, hchain, rfl⟩

theorem exists_chain {marked : List Marked} {stack : List Frame} (hreads : Reads stack marked fileStack) :
    (stack = fileStack →
        ∃ sections rest, Chain fileStack sections rest ∧ (Outline.mk sections rest).marked = marked) ∧
      ∀ upper, Below 4 upper → stack = upper ++ [.decl .itemEnd] → ClosesItem upper marked := by
  induction marked generalizing stack with
  | nil =>
      cases hreads
      refine ⟨fun _ => ⟨[], [], .rest ⟨by simp, .refl _⟩, rfl⟩, ?_⟩
      intro upper _ hstack
      exact absurd hstack (ne_fileStack upper)
  | cons m marked ih =>
      cases hreads with
      | @step _ next _ _ _ hadvance hreads =>
          obtain ⟨houtside, hinside⟩ := ih hreads
          constructor
          · rintro rfl
            obtain ⟨hrole, rfl, hkind⟩ | ⟨hrole, frames, hframes, rfl⟩ := advance_fileStack hadvance
            · obtain ⟨sections, rest, hchain, rfl⟩ := houtside rfl
              exact hchain.cons_loose ⟨.inl hrole, hkind⟩ hadvance
            · obtain ⟨inside, final, sections, rest, hinner, hitem, hlast, hends, hchain, rfl⟩ :=
                hinside frames hframes rfl
              refine ⟨⟨[], m :: inside⟩ :: sections, rest, .item ⟨by simp, .refl _⟩
                ⟨hadvance, hrole, hframes, hinner, hitem, hlast, hends⟩ hchain, ?_⟩
              simp [Outline.marked]
          · rintro upper hupper rfl
            obtain ⟨rest, hrest, rfl, hadvance', hrole⟩ | ⟨hrole, rfl, hterminator, hleaves⟩ :=
              advance_item hupper hadvance
            · have hcloses := hinside rest hrest rfl
              obtain ⟨hrole, rfl, hkind⟩ | hrole := hrole
              · exact hcloses.cons_trivia hadvance' hadvance ⟨.inl hrole, hkind⟩
              · exact hcloses.cons_inner hadvance' hadvance hrole
            · obtain ⟨sections, rest, hchain, rfl⟩ := houtside rfl
              obtain ⟨sections', rest', hchain', hmarked⟩ :=
                hchain.cons_loose ⟨.inr hrole, isLoose_of_isTerminator hterminator⟩ hadvance
              exact ⟨[], upper, sections', rest', .refl _, .refl _, by simp, hleaves.at_newline hterminator,
                hchain', hmarked⟩

namespace Outline

theorem Draft.step_inner {draft : Draft} {marked : Marked} (hrole : marked.role.level ≤ 4) :
    draft.step marked =
      { draft with body := marked :: (draft.tail ++ draft.body), tail := [] } := by
  unfold Draft.step
  split
  case h_1 htrivia => exact absurd hrole (by simp [htrivia, Role.level])
  case h_2 hending => exact absurd hrole (by simp [hending, Role.level])
  case h_3 => rfl

theorem Draft.step_trivia {draft : Draft} {marked : Marked} (hrole : marked.role = .trivia)
    (hbody : draft.body ≠ []) : draft.step marked = { draft with tail := marked :: draft.tail } := by
  rw [Draft.step, hrole]
  simp only [List.isEmpty_iff, hbody, if_false]

theorem Draft.foldl_inner {draft : Draft} {marked : List Marked} (hbody : draft.body ≠ [])
    (hroles : ∀ m ∈ marked, m.role = .trivia ∨ m.role.level ≤ 4) :
    ∃ body tail, marked.foldl Draft.step draft = { draft with body, tail } ∧ body ≠ [] ∧
      tail ++ body = marked.reverse ++ (draft.tail ++ draft.body) := by
  induction marked generalizing draft with
  | nil => exact ⟨draft.body, draft.tail, rfl, hbody, rfl⟩
  | cons m marked ih =>
      obtain ⟨hrole, hroles⟩ := List.forall_mem_cons.mp hroles
      rw [List.foldl_cons]
      obtain hrole | hrole := hrole
      · rw [Draft.step_trivia hrole hbody]
        obtain ⟨body, tail, hfold, hne, hlists⟩ := @ih { draft with tail := m :: draft.tail } hbody hroles
        exact ⟨body, tail, hfold, hne, by simpa using hlists⟩
      · rw [Draft.step_inner hrole]
        obtain ⟨body, tail, hfold, hne, hlists⟩ :=
          @ih { draft with body := m :: (draft.tail ++ draft.body), tail := [] } (by simp) hroles
        exact ⟨body, tail, hfold, hne, by simpa using hlists⟩

theorem Draft.foldl_item {sections : List Section} {gap : List Marked} {head : Marked} {rest : List Marked}
    {frames final : List Frame} (hitem : IsItem head rest frames final) :
    (head :: rest).foldl Draft.step ⟨sections, gap, [], []⟩ = ⟨sections, gap, (head :: rest).reverse, []⟩ := by
  have hroles := (hitem.inner.level_le hitem.below).2
  rw [List.foldl_cons, Draft.step_inner hitem.level]
  cases hlast : rest.getLast? with
  | none =>
      obtain rfl := List.getLast?_eq_none_iff.mp hlast
      rfl
  | some last =>
      obtain ⟨front, rfl⟩ := List.getLast?_eq_some_iff.mp hlast
      obtain ⟨body, tail, hfold, -, hlists⟩ := @Draft.foldl_inner ⟨sections, gap, [head], []⟩ front (by simp)
        fun m hm => hroles m (List.mem_append_left _ hm)
      rw [List.foldl_append]
      simp only [List.append_nil, hfold, List.foldl_cons, List.foldl_nil]
      rw [Draft.step_inner (hitem.last last hlast), hlists]
      simp

theorem Draft.foldl_gap_start {sections : List Section} {gap more : List Marked} (hmore : IsGap fileStack more) :
    more.foldl Draft.step ⟨sections, gap, [], []⟩ = ⟨sections, more.reverse ++ gap, [], []⟩ := by
  induction more generalizing gap with
  | nil => rfl
  | cons m more ih =>
      obtain ⟨hloose, hreads⟩ := hmore
      obtain ⟨hm, hloose⟩ := List.forall_mem_cons.mp hloose
      cases hreads with
      | step hadvance hreads =>
          obtain ⟨hrole, rfl, -⟩ | ⟨hrole, -⟩ := advance_fileStack hadvance
          · rw [List.foldl_cons, Draft.step, hrole]
            simp only [List.isEmpty_nil, if_true]
            rw [ih ⟨hloose, hreads⟩]
            simp
          · exact absurd hrole hm.not_level

theorem Draft.foldl_gap {draft : Draft} {gap : List Marked} {final : List Frame} (hfinal : Below 4 final)
    (hgap : IsGap (final ++ [.decl .itemEnd]) gap) (hbody : draft.body ≠ []) :
    gap.foldl Draft.step draft =
      ⟨⟨draft.gap.reverse, draft.body.reverse⟩ :: draft.sections, gap.reverse ++ draft.tail, [], []⟩ := by
  obtain ⟨hloose, hreads⟩ := hgap
  induction gap generalizing draft with
  | nil =>
      generalize hstart : final ++ [.decl .itemEnd] = start at hreads
      cases hreads
      exact absurd hstart.symm (ne_fileStack final)
  | cons m gap ih =>
      obtain ⟨hm, hothers⟩ := List.forall_mem_cons.mp hloose
      cases hreads with
      | step hadvance hreads =>
          rw [List.foldl_cons]
          obtain ⟨rest, hrest, rfl, -, ⟨hrole, rfl, -⟩ | hrole⟩ | ⟨hrole, rfl, -⟩ :=
            advance_item hfinal hadvance
          · rw [Draft.step_trivia hrole hbody, @ih { draft with tail := m :: draft.tail } hbody hothers hreads]
            simp
          · exact absurd hrole hm.not_level
          · rw [Draft.step, hrole]
            rw [Draft.foldl_gap_start ⟨hothers, hreads⟩]
            simp

end Outline

open Outline

theorem Chain.finish_foldl {sections : List Section} {rest : List Marked} {stack final : List Frame} {draft : Draft}
    (hchain : Chain stack sections rest) (hstack : stack = final ++ [.decl .itemEnd]) (hfinal : Below 4 final)
    (hbody : draft.body ≠ []) (htail : draft.tail = []) :
    ((Outline.mk sections rest).marked.foldl Draft.step draft).finish =
      ⟨draft.sections.reverse ++ ⟨draft.gap.reverse, draft.body.reverse⟩ :: sections, rest⟩ := by
  induction hchain generalizing draft final with
  | rest hrest =>
      subst hstack
      have hmarked (rest : List Marked) : (Outline.mk [] rest).marked = rest := rfl
      rw [hmarked, Draft.foldl_gap hfinal hrest hbody]
      simp [Draft.finish, htail]
  | @item _ frames last gap body rest head sections hgap hitem hchain ih =>
      subst hstack
      have hmarked : (Outline.mk (⟨gap, head :: body⟩ :: sections) rest).marked =
          gap ++ ((head :: body) ++ (Outline.mk sections rest).marked) := by
        simp [Outline.marked]
      rw [hmarked, List.foldl_append, Draft.foldl_gap hfinal hgap hbody, List.foldl_append,
        Draft.foldl_item hitem, ih rfl hitem.final_below (by simp) rfl]
      simp [htail]

theorem Chain.ofMarked_eq {sections : List Section} {rest : List Marked} (hchain : Chain fileStack sections rest) :
    ofMarked (Outline.mk sections rest).marked = ⟨sections, rest⟩ := by
  unfold ofMarked
  cases hchain with
  | rest hrest =>
      have hmarked : (Outline.mk [] rest).marked = rest := rfl
      rw [hmarked, Draft.foldl_gap_start hrest]
      simp [Draft.finish]
  | @item _ frames last gap body _ head sections hgap hitem hchain =>
      have hmarked : (Outline.mk (⟨gap, head :: body⟩ :: sections) rest).marked =
          gap ++ ((head :: body) ++ (Outline.mk sections rest).marked) := by
        simp [Outline.marked]
      rw [hmarked, List.foldl_append, Draft.foldl_gap_start hgap, List.foldl_append,
        Draft.foldl_item hitem, hchain.finish_foldl rfl hitem.final_below (by simp) rfl]
      simp

/-- The outline of a file is made of items and of what stands between them. -/
theorem chain_ofMarked {marked : List Marked} (hreads : Reads fileStack marked fileStack) :
    Chain fileStack (ofMarked marked).sections (ofMarked marked).rest := by
  obtain ⟨sections, rest, hchain, rfl⟩ := (exists_chain hreads).1 rfl
  rwa [hchain.ofMarked_eq]

end Grammar

end GoGraft
