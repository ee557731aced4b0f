import GoGraft.Proofs.RecordRuns
import GoGraft.Proofs.Sections

/-!
# Statements stand in blocks

Of all frames, only a list of statements ends before a newline and not before a semicolon: there it reads an empty
statement. But below such a list there is always the block that it stands in, which ends before neither. So an item that
can end can end before any terminator.
-/

namespace GoGraft.Grammar

variable {kind : LexemeKind} {role : Role} {stack next left right : List Frame}

/-- Each list of statements stands on a block, whatever else is on the stack. -/
def Grounded : List Frame → Prop
  | [] => True
  | frame :: below => (frame.footing = .block → ∃ floor ∈ below.head?, floor.IsBlock) ∧ Grounded below

theorem Standing.grounded (hstanding : Standing stack) : Grounded stack := by
  induction stack with
  | nil => trivial
  | cons frame below ih =>
      obtain ⟨hfooting, hbelow⟩ := hstanding
      refine ⟨?_, ih hbelow⟩
      intro hblock
      rw [hblock] at hfooting
      obtain ⟨floor, rest, rfl, hfloor⟩ := hfooting
      exact ⟨floor, rfl, hfloor⟩

namespace Grounded

theorem cons {frame : Frame} (hblock : frame.footing ≠ .block) (hright : Grounded right) : Grounded (frame :: right) :=
  ⟨fun hneeds => absurd hneeds hblock, hright⟩

theorem append (hleft : Grounded left) (hright : Grounded right) : Grounded (left ++ right) := by
  induction left with
  | nil => exact hright
  | cons frame left ih =>
      obtain ⟨hfloor, hleft⟩ := hleft
      refine ⟨?_, ih hleft⟩
      intro hblock
      obtain ⟨floor, hhead, hfloor⟩ := hfloor hblock
      refine ⟨floor, ?_, hfloor⟩
      change floor ∈ (left ++ right).head?
      rw [List.head?_append, Option.mem_def.mp hhead]
      rfl

theorem of_append (hgrounded : Grounded (left ++ right)) (hright : ∀ floor ∈ right.head?, ¬ floor.IsBlock) :
    Grounded left := by
  induction left with
  | nil => trivial
  | cons frame left ih =>
      obtain ⟨hneeds, hleft⟩ := hgrounded
      refine ⟨?_, ih hleft⟩
      intro hblock
      obtain ⟨floor, hhead, hfloor⟩ := hneeds hblock
      cases left with
      | nil => exact absurd hfloor (hright floor hhead)
      | cons next left => exact ⟨floor, hhead, hfloor⟩

theorem resume {frame resumed : Frame} {reading : Reading} {below : List Frame}
    (hgrounded : Grounded (frame :: below)) (hresume : frame.resume reading = some resumed) :
    Grounded (resumed :: below) := by
  obtain ⟨hfloor, hbelow⟩ := hgrounded
  refine ⟨?_, hbelow⟩
  intro hblock
  obtain hsame | ⟨hfree, -⟩ := frame.footing_resume hresume
  · exact hfloor (hsame ▸ hblock)
  · cases hblock.symm.trans hfree

end Grounded

theorem Frame.eq_of_footing_block {frame : Frame} (hblock : frame.footing = .block) :
    frame = .stmt .statements ∨ frame = .stmt .statementEnd := by
  unfold Frame.footing at hblock
  split at hblock
  case h_1 => exact .inl rfl
  case h_2 => exact .inr rfl
  case h_10 => split at hblock <;> cases hblock
  all_goals cases hblock

theorem Frame.exists_standing {frame : Frame} (hblock : frame.footing ≠ .block) :
    ∃ below, Standing (frame :: below) ∧ ∀ floor ∈ below.head?, ¬ floor.IsBlock := by
  cases hfooting : frame.footing with
  | free => exact ⟨[], ⟨by rw [hfooting]; nofun, trivial⟩, by rintro _ ⟨⟩⟩
  | block => exact absurd hfooting hblock
  | statement =>
      refine ⟨[.stmt .statementEnd, .stmt .blockEnd], ⟨?_, ⟨_, _, rfl, .inl rfl⟩, nofun, trivial⟩, ?_⟩
      · rw [hfooting]
        exact ⟨_, rfl⟩
      · rintro _ ⟨⟩ (hend | ⟨held, hend⟩) <;> cases hend
  | constraint =>
      refine ⟨[.decl (.typeBody true)], ⟨?_, rfl, trivial⟩, ?_⟩
      · rw [hfooting]
        rfl
      · rintro _ ⟨⟩ (hend | ⟨held, hend⟩) <;> cases hend
  | ground => exact ⟨[], ⟨by rw [hfooting]; rfl, trivial⟩, by rintro _ ⟨⟩⟩

theorem levelOnTop_le (top : Bool) (level : Nat) : levelOnTop top level ≤ level := by
  cases top
  · exact Nat.zero_le level
  · exact Nat.le_refl level

theorem TypeFrame.level_le (frame : TypeFrame) : frame.level ≤ 3 := by
  unfold TypeFrame.level
  split
  all_goals first
    | exact Nat.zero_le 3
    | exact Nat.le_trans (levelOnTop_le _ _) (by decide)

theorem ExprFrame.level_le (frame : ExprFrame) : frame.level ≤ 3 := by
  have hindexed (indexed : Indexed) : indexed.level ≤ 3 := by
    cases indexed
    · exact Nat.zero_le 3
    all_goals exact Nat.le_trans (levelOnTop_le _ _) (by decide)
  unfold ExprFrame.level
  split
  all_goals first
    | exact Nat.zero_le 3
    | exact hindexed _

theorem Closed.grounded {frames : List Frame} (hclosed : Closed frames) : Grounded frames := by
  have hstanding := hclosed.standing carries_nil
  rw [List.append_nil] at hstanding
  exact hstanding.grounded

theorem grounded_startStatement {frames : List Frame} (hstart : frames ∈ startStatement kind) : Grounded frames := by
  have hblock : Standing [.stmt .statementEnd, .stmt .blockEnd] := ⟨⟨_, _, rfl, .inl rfl⟩, nofun, trivial⟩
  apply (standing_startStatement hstart hblock).grounded.of_append
  rintro _ ⟨⟩ (hend | ⟨held, hend⟩) <;> cases hend

theorem grounded_startItem {frames : List Frame} (hstart : frames ∈ startItem kind) : Grounded frames := by
  unfold startItem at hstart
  split at hstart
  case h_7 => exact grounded_startStatement hstart
  all_goals
    cases hstart
    exact ⟨nofun, trivial⟩

/-- What a move leaves needs no block below it. -/
def Move.Grounds : Move → Prop
  | .take _ next => Grounded next
  | .leave _ | .refuse => True

theorem Move.grounds_ofStart {rest : List Frame} {start : Option (List Frame)} (hrest : Grounded rest)
    (hstart : ∀ frames ∈ start, Grounded frames) : (Move.ofStart role rest start).Grounds := by
  cases start with
  | none => trivial
  | some frames => exact (hstart frames rfl).append hrest

theorem Move.Grounds.of_take {move : Move} (hgrounds : move.Grounds) (htake : move = .take role next) :
    Grounded next := by
  rwa [htake] at hgrounds

theorem grounds_startImport (kind : LexemeKind) : (startImport kind).Grounds := by
  unfold startImport
  split
  · trivial
  · exact ⟨nofun, trivial⟩
  · exact ⟨nofun, trivial⟩
  · exact ⟨nofun, trivial⟩
  · trivial

theorem DeclFrame.grounds {frame : DeclFrame} (kind : LexemeKind) (hlevel : ¬ frame.level ≤ 3) :
    (frame.move kind).Grounds := by
  cases frame
  case items => exact Move.grounds_ofStart ⟨by rintro ⟨⟩, trivial⟩ fun frames => grounded_startItem
  case itemEnd | packageName | imports | importPath | importGroup | importEnd | function | functionName | receiver
      | methodName =>
    simp only [DeclFrame.move]
    repeat' split
    all_goals first
      | trivial
      | exact grounds_startImport kind
      | exact Move.grounds_ofStart (.cons (by rintro ⟨⟩) (.cons (by rintro ⟨⟩) (.cons (by rintro ⟨⟩) trivial)))
          fun frames hframes => (closed_startType hframes).grounded
      | skip
    all_goals first
      | exact ((grounds_startImport kind).of_take (by assumption)).append ⟨by rintro ⟨⟩, trivial⟩
      | skip
    all_goals
      repeat' first
        | exact Closed.block.grounded
        | trivial
        | apply Grounded.append
        | apply Grounded.cons
  case constantValue | variableValue | body => exact absurd (Nat.zero_le 3) hlevel
  case typeName top | typeBracket top | typeParameter top | typeParameterIndex top | typeParameterIndexEnd top _ _
      | typeParameterGroup top | typeParameterGroupItem top | typeParameterGroupEnd top _ _ | lengthOrConstraint top
      | lengthOrConstraintEnd top _ _ | typeBody top | typeBodyOrAlias top =>
    exact absurd (levelOnTop_le top 3) hlevel
  all_goals
    rename_i top
    cases top
    case false => exact absurd (Nat.zero_le 3) hlevel
    simp only [DeclFrame.move]
    repeat' split
  all_goals first
    | trivial
    | exact Move.grounds_ofStart (.cons (by rintro ⟨⟩) trivial) fun frames hframes => (closed_startType hframes).grounded
    | skip
  all_goals
    repeat' first
      | exact (closed_startType (by assumption)).grounded
      | trivial
      | apply Grounded.append
      | apply Grounded.cons

theorem Frame.grounds {frame : Frame} (kind : LexemeKind) (hblock : frame.footing ≠ .block) :
    (frame.move kind).Grounds := by
  by_cases hlevel : frame.level ≤ 3
  · obtain ⟨below, hstanding, hbelow⟩ := frame.exists_standing hblock
    have hstands := Frame.stands kind hlevel hstanding
    cases hmove : frame.move kind with
    | leave | refuse => trivial
    | take role pushed =>
        rw [hmove] at hstands
        exact (Standing.grounded hstands).of_append hbelow
  · cases frame with
    | decl frame => exact DeclFrame.grounds kind hlevel
    | expect due =>
        simp only [Frame.move]
        split <;> trivial
    | type frame => exact absurd frame.level_le hlevel
    | expr frame => exact absurd frame.level_le hlevel
    | stmt | word | finished => exact absurd (Nat.zero_le 3) hlevel

namespace Grounded

theorem settle {frame : Frame} {bottom : List Frame} (hsettles : Settles kind stack frame bottom)
    (hgrounded : Grounded stack) : Grounded (frame :: bottom) := by
  induction hsettles with
  | here => exact hgrounded
  | down _ hresume _ ih => exact ih (hgrounded.2.resume hresume)

theorem read (hgrounded : Grounded stack) (hread : read stack kind = some (role, next)) : Grounded next := by
  obtain ⟨frame, bottom, pushed, hsettles, hmove, rfl⟩ := read_eq_some_iff.mp hread
  have hframe := hgrounded.settle hsettles
  by_cases hblock : frame.footing = .block
  · -- A statement stands in the block that the list of statements stands in.
    have hblock' : ∀ other : Frame, Grounded (other :: bottom) := fun other => ⟨fun _ => hframe.1 hblock, hframe.2⟩
    obtain rfl | rfl := frame.eq_of_footing_block hblock
    · simp only [Frame.move, StmtFrame.move] at hmove
      split at hmove
      · rename_i frames hframes
        cases hmove
        rw [List.append_assoc]
        exact (grounded_startStatement hframes).append (hblock' _)
      · cases hmove
    · simp only [Frame.move, StmtFrame.move] at hmove
      split at hmove
      · cases hmove
        exact hblock' _
      · cases hmove
  · exact ((frame.grounds kind hblock).of_take hmove).append hframe.2

theorem advance (hgrounded : Grounded stack) (hadvance : advance stack kind = some (role, next)) : Grounded next := by
  obtain ⟨-, rfl, -⟩ | hread | ⟨mark, left, right, first, middle, -, -, hleft, hright⟩ := advance_cases hadvance
  · exact hgrounded
  · exact hgrounded.read hread
  · exact (hgrounded.read hleft).read hright

end Grounded

theorem Reads.grounded {marked : List Marked} (hreads : Reads stack marked next) (hgrounded : Grounded stack) :
    Grounded next := by
  induction hreads with
  | refl => exact hgrounded
  | step hadvance _ ih => exact ih (hgrounded.advance hadvance)

/-- What ends before a newline ends before any terminator, a list of statements excepted. -/
theorem Frame.leave_at_terminator {frame : Frame} {reading : Reading} (hframe : frame ≠ .stmt .statements)
    (hterminator : isTerminator kind) (hleave : frame.move .newline = .leave reading) :
    frame.move kind = .leave reading := by
  refine (frame.leave_iff ?_ (.inl hterminator)).mpr hleave
  intro hawaits
  obtain rfl | rfl | rfl := frame.eq_of_awaitsStatement hawaits
  · exact hframe rfl
  · cases hleave
  · cases hleave

theorem Grounded.not_leaves_statements {below : List Frame} (hgrounded : Grounded (.stmt .statements :: below)) :
    ¬ Leaves .newline (.stmt .statements :: below) := by
  obtain ⟨floor, hhead, hfloor⟩ := hgrounded.1 rfl
  intro hleaves
  cases hleaves with
  | last => cases hhead
  | @down _ _ _ _ reading _ hresume hrest =>
      obtain rfl := Option.some.inj hhead
      obtain rfl := Option.some.inj ((hfloor.resume reading).symm.trans hresume)
      cases hrest with
      | last hleave => cases hfloor.move.2.symm.trans hleave
      | down hleave => cases hfloor.move.2.symm.trans hleave

theorem Leaves.at_terminator {upper : List Frame} (hgrounded : Grounded upper) (hterminator : isTerminator kind)
    (hleaves : Leaves .newline upper) : Leaves kind upper := by
  induction hleaves with
  | nil => exact .nil
  | @last top reading hleave =>
      refine .last (top.leave_at_terminator ?_ hterminator hleave)
      rintro rfl
      exact hgrounded.not_leaves_statements (.last hleave)
  | @down top below resumed rest reading hleave hresume hrest ih =>
      refine .down (top.leave_at_terminator ?_ hterminator hleave) hresume (ih (hgrounded.2.resume hresume))
      rintro rfl
      exact hgrounded.not_leaves_statements (.down hleave hresume hrest)

theorem IsItem.grounded {head : Marked} {rest : List Marked} {frames final : List Frame}
    (hitem : IsItem head rest frames final) : Grounded final := by
  have hreads : Reads fileStack (head :: rest) (final ++ [.decl .itemEnd]) := .step hitem.opens hitem.reads
  have hgrounded : Grounded (final ++ [.decl .itemEnd]) := hreads.grounded ⟨nofun, trivial⟩
  apply hgrounded.of_append
  rintro _ ⟨⟩ (hend | ⟨held, hend⟩) <;> cases hend

/-- An item that can end can end before any terminator. -/
theorem IsItem.ends_before {head : Marked} {rest : List Marked} {frames final : List Frame}
    (hitem : IsItem head rest frames final) (hterminator : isTerminator kind) : Leaves kind final :=
  hitem.ends.at_terminator hitem.grounded hterminator

/-- What a newline ends makes place for what can come after it, and this does not end before another newline. -/
theorem Frame.rests_after_newline {frame : Frame} {pushed : List Frame} (hlevel : frame.level ≤ 4)
    (hmove : frame.move .newline = .take role pushed) :
    ∃ rested, pushed = [rested] ∧ (rested = .stmt .statements ∨ rested.move .newline = .refuse) := by
  cases frame.takesNewline_of_move hmove with
  | statementEnd => exact ⟨_, rfl, .inl rfl⟩
  | fieldEnd | elementEnd | constantEnd | variableEnd | typeEnd | importEnd => exact ⟨_, rfl, .inr rfl⟩
  | itemEnd | expect => exact absurd hlevel (by decide)

theorem IsItem.last_ne_newline {head last : Marked} {rest : List Marked} {frames final : List Frame}
    (hitem : IsItem head rest frames final) (hlast : rest.getLast? = some last) : last.kind ≠ .newline := by
  intro hkind
  have hlevel := hitem.last last hlast
  obtain ⟨front, rfl⟩ := List.getLast?_eq_some_iff.mp hlast
  obtain ⟨middle, hfront, hreads⟩ := hitem.inner.of_append
  cases hreads with
  | step hadvance hnil =>
      cases hnil
      rw [hkind] at hadvance
      obtain ⟨hrole, -⟩ | hread | ⟨mark, _, _, _, _, hmark, -⟩ := advance_cases hadvance
      · rw [hrole] at hlevel
        exact absurd hlevel (by decide)
      · obtain ⟨frame, bottom, pushed, hsettles, hmove, rfl⟩ := read_eq_some_iff.mp hread
        have hframe := (hsettles.level_le (hfront.level_le hitem.below).1).1
        obtain ⟨rested, rfl, rfl | hrefuse⟩ := frame.rests_after_newline hframe hmove
        · exact hitem.grounded.not_leaves_statements hitem.ends
        · cases hitem.ends with
          | last hleave => cases hrefuse.symm.trans hleave
          | down hleave => cases hrefuse.symm.trans hleave
      · cases hmark

end GoGraft.Grammar
