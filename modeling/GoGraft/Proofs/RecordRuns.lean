import GoGraft.Proofs.Boundaries
import GoGraft.Proofs.Standing

/-!
# Runs inside a struct type

Between its braces a struct type is read field by field, each up to a terminator. Where a closing brace can be read, a
newline can be read in its place and brings the machine back to where a field can begin, so that a field can be written
on lines of its own before the brace of any struct type.
-/

namespace GoGraft.Grammar

variable {kind : LexemeKind} {role : Role} {stack next : List Frame}

/-- What ends before a closing brace ends before a newline. The two frames that a newline does not end are those of a
statement, whose block is still open. -/
theorem Frame.leave_newline {frame : Frame} {reading : Reading} (hend : frame ≠ .stmt .statementEnd)
    (hlabelled : frame ≠ .stmt .labelled) (hleave : frame.move (.mark .closeBrace) = .leave reading) :
    frame.move .newline = .leave reading := by
  by_cases hframe : frame.awaitsStatement
  · obtain rfl | rfl | rfl := frame.eq_of_awaitsStatement hframe
    · exact hleave
    · exact absurd rfl hend
    · exact absurd rfl hlabelled
  · exact (frame.leave_iff hframe (.inr rfl)).mp hleave

/-- The floor of a field. -/
def fieldFloor : Frame := .type (.fieldEnd true)

/-- A block or a clause of one. -/
def Frame.IsBlock (frame : Frame) : Prop :=
  frame = .stmt .blockEnd ∨ ∃ held, frame = .stmt (.clauses held)

theorem Frame.IsBlock.resume {frame : Frame} (hblock : frame.IsBlock) (reading : Reading) :
    frame.resume reading = some frame := by
  obtain rfl | ⟨held, rfl⟩ := hblock <;> rfl

theorem Frame.IsBlock.move {frame : Frame} (hblock : frame.IsBlock) :
    frame.move (.mark .closeBrace) = .take .inner [] ∧ frame.move .newline = .refuse := by
  obtain rfl | ⟨held, rfl⟩ := hblock
  · exact ⟨rfl, rfl⟩
  · cases held <;> exact ⟨rfl, rfl⟩

/-- A statement that stands in a block does not end together with the block. -/
theorem not_leaves_statementEnd {rest : List Frame}
    (hstanding : Standing (.stmt .statementEnd :: (rest ++ [fieldFloor]))) :
    ¬ Leaves (.mark .closeBrace) (.stmt .statementEnd :: rest) := by
  intro hleaves
  obtain ⟨⟨floor, bottom, hfloor, hblock⟩, -⟩ := hstanding
  have hblock : floor.IsBlock := hblock
  cases rest with
  | nil =>
      obtain ⟨rfl, -⟩ := List.cons.inj hfloor
      obtain hblock | ⟨held, hblock⟩ := hblock <;> cases hblock
  | cons below rest =>
      obtain ⟨rfl, -⟩ := List.cons.inj hfloor
      cases hleaves with
      | down hleave hresume hrest =>
          obtain rfl := Option.some.inj ((hblock.resume _).symm.trans hresume)
          cases hrest with
          | last hleave => cases hblock.move.1.symm.trans hleave
          | down hleave => cases hblock.move.1.symm.trans hleave

theorem Leaves.newline {upper : List Frame} (hleaves : Leaves (.mark .closeBrace) upper)
    (hstanding : Standing (upper ++ [fieldFloor])) : Leaves .newline upper := by
  have hend {rest : List Frame} (hstanding : Standing (.stmt .labelled :: (rest ++ [fieldFloor]))) :
      ¬ Leaves (.mark .closeBrace) (.stmt .labelled :: rest) := by
    intro hleaves
    obtain ⟨⟨bottom, hbottom⟩, hbelow⟩ := hstanding
    cases rest with
    | nil => cases hbottom
    | cons below rest =>
        obtain ⟨rfl, -⟩ := List.cons.inj hbottom
        cases hleaves with
        | down hleave hresume hrest =>
            obtain rfl := Option.some.inj hresume
            exact not_leaves_statementEnd hbelow hrest
  induction hleaves with
  | nil => exact .nil
  | @last top reading hleave =>
      refine .last (top.leave_newline ?_ ?_ hleave)
      · rintro rfl
        exact not_leaves_statementEnd hstanding (.last hleave)
      · rintro rfl
        exact hend hstanding (.last hleave)
  | @down top below resumed rest reading hleave hresume hrest ih =>
      refine .down (top.leave_newline ?_ ?_ hleave) hresume (ih (hstanding.2.resume hresume))
      · rintro rfl
        exact not_leaves_statementEnd hstanding (.down hleave hresume hrest)
      · rintro rfl
        exact hend hstanding (.down hleave hresume hrest)

theorem read_leave {top below resumed : Frame} {rest : List Frame} {reading : Reading}
    (hleave : top.move kind = .leave reading) (hresume : below.resume reading = some resumed) :
    read (top :: below :: rest) kind = read (resumed :: rest) kind := by
  change settle top (below :: rest) kind = _
  rw [settle, hleave]
  simp only [hresume]
  rfl

theorem move_of_read {frame : Frame} (hread : read [frame] kind = some (role, next)) :
    frame.move kind = .take role next := by
  obtain ⟨reader, bottom, pushed, hsettles, hmove, rfl⟩ := read_eq_some_iff.mp hread
  cases hsettles
  rwa [List.append_nil]

theorem read_of_leaves {floor : Frame} {upper below : List Frame}
    (hresume : ∀ reading, floor.resume reading = some floor) (hleaves : Leaves kind upper) :
    read (upper ++ floor :: below) kind = read (floor :: below) kind := by
  induction hleaves with
  | nil => rfl
  | last hleave => exact read_leave hleave (hresume _)
  | down hleave hbeneath _ ih => exact (read_leave hleave hbeneath).trans ih

/-- A frame from which only white space goes on, until its own construct does or ends. -/
def Frame.IsRested (frame : Frame) : Prop :=
  frame.level = 0 ∧ (frame = .stmt .statements ∨
    (frame.move .newline = .refuse ∧ ∀ reading, frame.move (.mark .closeBrace) ≠ .leave reading))

theorem Shape.move_newline (shape : Shape) (site : Site) :
    shape.move site .newline ≠ .take role next := by
  simp only [Shape.move]
  split <;> simp

/-- A frame that reads a newline, with the role of the newline and what comes after it. -/
inductive Frame.TakesNewline : Frame → Role → List Frame → Prop where
  | fieldEnd (top : Bool) : TakesNewline (.type (.fieldEnd top)) (Role.recordSplit.onTop top) [.type (.fields top)]
  | elementEnd : TakesNewline (.type .elementEnd) .inner [.type .elements]
  | statementEnd : TakesNewline (.stmt .statementEnd) .inner [.stmt .statements]
  | constantEnd (top : Bool) : TakesNewline (.decl (.constantEnd top)) .inner [.decl (.constantGroup top)]
  | variableEnd (top : Bool) : TakesNewline (.decl (.variableEnd top)) .inner [.decl (.variableGroup top)]
  | typeEnd (top : Bool) : TakesNewline (.decl (.typeEnd top)) (Role.groupSplit.onTop top) [.decl (.typeGroup top)]
  | importEnd : TakesNewline (.decl .importEnd) .groupSplit [.decl .importGroup]
  | itemEnd : TakesNewline (.decl .itemEnd) .ending [.decl .items]
  | expect : TakesNewline (.expect .newline) .inner []

theorem Frame.takesNewline_of_move {frame : Frame} {pushed : List Frame}
    (hmove : frame.move .newline = .take role pushed) : frame.TakesNewline role pushed := by
  cases frame with
  | type frame =>
      cases frame
      case fieldEnd top =>
        cases hmove
        exact .fieldEnd top
      case elementEnd =>
        cases hmove
        exact .elementEnd
      case nameEnd top value type => cases value <;> cases type <;> cases hmove
      all_goals cases hmove
  | expr frame =>
      cases frame
      case chain soFar site => cases soFar <;> cases hmove
      case postfixes shape site => exact absurd hmove (shape.move_newline site)
      all_goals cases hmove
  | stmt frame =>
      cases frame
      case statementEnd =>
        cases hmove
        exact .statementEnd
      case simpleEnd place word => cases place <;> cases hmove
      all_goals cases hmove
  | decl frame =>
      cases frame
      case constantEnd top =>
        cases hmove
        exact .constantEnd top
      case variableEnd top =>
        cases hmove
        exact .variableEnd top
      case typeEnd top =>
        cases hmove
        exact .typeEnd top
      case importEnd =>
        cases hmove
        exact .importEnd
      case itemEnd =>
        cases hmove
        exact .itemEnd
      case typeParameterIndexEnd top shape value =>
        have hstart : (if value then startConstraint .newline else none) = none := by
          cases value <;> rfl
        simp only [Frame.move, DeclFrame.move, hstart] at hmove
        split at hmove
        case h_1 hshape => exact absurd hshape (shape.move_newline .free)
        all_goals cases hmove
      all_goals cases hmove
  | expect due =>
      simp only [Frame.move] at hmove
      split at hmove
      · rename_i hdue
        cases hmove
        exact hdue ▸ .expect
      · cases hmove
  | word | finished => cases hmove

theorem Frame.take_newline {frame : Frame} {pushed : List Frame} (hlevel : frame.level ≤ 2)
    (hmove : frame.move .newline = .take role pushed) :
    (role = .recordSplit ∧ pushed = [.type (.fields true)]) ∨ ∃ rested, pushed = [rested] ∧ rested.IsRested := by
  cases frame.takesNewline_of_move hmove with
  | fieldEnd top =>
      cases top with
      | true => exact .inl ⟨rfl, rfl⟩
      | false => exact .inr ⟨_, rfl, rfl, .inr ⟨rfl, nofun⟩⟩
  | elementEnd => exact .inr ⟨_, rfl, rfl, .inr ⟨rfl, nofun⟩⟩
  | statementEnd => exact .inr ⟨_, rfl, rfl, .inl rfl⟩
  | constantEnd top | variableEnd top | typeEnd top =>
      cases top with
      | true => exact absurd hlevel (by decide)
      | false => exact .inr ⟨_, rfl, rfl, .inr ⟨rfl, nofun⟩⟩
  | importEnd | itemEnd | expect => exact absurd hlevel (by decide)

theorem Frame.IsRested.read {rested : Frame} {below : List Frame} (hrested : rested.IsRested)
    (hstanding : Standing (rested :: below)) :
    Grammar.read (rested :: below) .newline = none ∧
      ∀ next, Grammar.read (rested :: below) (.mark .closeBrace) ≠ some (.recordClose, next) := by
  obtain ⟨hlevel, rfl | ⟨hrefuse, hleave⟩⟩ := hrested
  · obtain ⟨⟨floor, rest, rfl, hblock⟩, -⟩ := hstanding
    have hblock : floor.IsBlock := hblock
    have hskip (kind : LexemeKind) (hleave : (Frame.stmt .statements).move kind = .leave .action) :
        Grammar.read (.stmt .statements :: floor :: rest) kind = settle floor rest kind :=
      read_leave hleave (hblock.resume _)
    rw [hskip _ rfl, hskip _ rfl]
    obtain ⟨hclose, hnewline⟩ := hblock.move
    constructor
    · rw [settle.eq_def, hnewline]
    · intro next hread
      rw [settle.eq_def, hclose] at hread
      cases hread
  · constructor
    · change settle rested below .newline = none
      rw [settle.eq_def, hrefuse]
    · intro next hread
      change settle rested below (.mark .closeBrace) = _ at hread
      rw [settle.eq_def] at hread
      split at hread
      · rename_i role pushed hmove
        obtain ⟨rfl, -⟩ := Prod.mk.inj (Option.some.inj hread)
        have hrole := ((rested.move_within (.mark .closeBrace)).of_take hmove).1
        rw [hlevel] at hrole
        exact absurd hrole (by decide)
      · cases hread
      · rename_i reading hmove
        exact hleave reading hmove

/-- The machine is between the braces of the struct type of a top-level type: before a field, or in one. -/
def InBody (stack : List Frame) : Prop :=
  stack = [.type (.fields true)] ∨ ∃ upper, Below 1 upper ∧ stack = upper ++ [fieldFloor]

/-- The roles of what stands between the braces. -/
def Role.IsBody (role : Role) : Prop :=
  role = .trivia ∨ role.level ≤ 1 ∨ role = .recordSplit

theorem Role.not_isBody_recordClose : ¬ Role.recordClose.IsBody := by
  unfold Role.IsBody
  decide

theorem isFloor_fieldFloor : fieldFloor.IsFloor where
  resume reading := rfl
  refuse {mark left right} hhalves := by
    cases mark <;> cases hhalves <;> exact ⟨rfl, rfl⟩

theorem read_fieldFloor (hread : read [fieldFloor] kind = some (role, next)) :
    (isTerminator kind ∧ role = .recordSplit ∧ next = [.type (.fields true)]) ∨
      (kind = .mark .closeBrace ∧ role = .recordClose ∧ next = []) := by
  have hmove := move_of_read hread
  simp only [fieldFloor, Frame.move, TypeFrame.move] at hmove
  split at hmove
  · cases hmove
    exact .inl ⟨‹_›, rfl, rfl⟩
  · split at hmove
    · cases hmove
      exact .inr ⟨‹_›, rfl, rfl⟩
    · cases hmove

theorem read_fields (hread : read [.type (.fields true)] kind = some (role, next)) :
    (role.level ≤ 1 ∧ ∃ upper, Below 1 upper ∧ next = upper ++ [fieldFloor]) ∨
      (kind = .mark .closeBrace ∧ role = .recordClose ∧ next = []) := by
  have hmove := move_of_read hread
  simp only [Frame.move, TypeFrame.move, startField] at hmove
  split at hmove
  · cases hmove
    exact .inr ⟨rfl, rfl, rfl⟩
  · split at hmove
    · cases hmove
      exact .inl ⟨by decide, [.type (.fieldName true)], by simp; decide, rfl⟩
    · split at hmove
      · cases hmove
        exact .inl ⟨by decide, [.type .pointed, .type (.tag true)], by simp; decide, rfl⟩
      · cases hmove

theorem advance_whole (hadvance : advance stack kind = some (role, next))
    (hrefuse : ∀ mark left right, halves mark = some (left, right) → read stack (.mark left) = none) :
    (role = .trivia ∧ next = stack) ∨ read stack kind = some (role, next) := by
  obtain ⟨htrivia, hnext, -⟩ | hread | ⟨mark, left, right, first, middle, -, hhalves, hleft, -⟩ :=
    advance_cases hadvance
  · exact .inl ⟨htrivia, hnext⟩
  · exact .inr hread
  · cases (hrefuse mark left right hhalves).symm.trans hleft

/-- A lexeme between the braces belongs to a field, parts two fields, or is the closing brace. -/
theorem InBody.step (hbody : InBody stack) (hadvance : advance stack kind = some (role, next)) :
    (role = .trivia ∧ next = stack) ∨
      (role.level ≤ 1 ∧ ∃ upper, Below 1 upper ∧ next = upper ++ [fieldFloor]) ∨
      (role = .recordSplit ∧ next = [.type (.fields true)]) ∨
      (kind = .mark .closeBrace ∧ role = .recordClose ∧ next = []) := by
  obtain rfl | ⟨upper, hupper, rfl⟩ := hbody
  · obtain htrivia | hread := advance_whole hadvance fun mark left right hhalves => by
      cases mark <;> cases hhalves <;> rfl
    · exact .inl htrivia
    · obtain hfield | hclose := read_fields hread
      · exact .inr (.inl hfield)
      · exact .inr (.inr (.inr hclose))
  · obtain ⟨rest, hrest, rfl⟩ | ⟨-, hread⟩ := advance_append isFloor_fieldFloor hadvance
    · obtain ⟨⟨rfl, rfl⟩ | hlevel, hbelow⟩ := advance_below hrest hupper
      · exact .inl ⟨rfl, rfl⟩
      · exact .inr (.inl ⟨hlevel, rest, hbelow, rfl⟩)
    · obtain ⟨-, hsplit⟩ | hclose := read_fieldFloor hread
      · exact .inr (.inr (.inl hsplit))
      · exact .inr (.inr (.inr hclose))

theorem InBody.below (hbody : InBody stack) : Below 2 stack := by
  obtain rfl | ⟨upper, hupper, rfl⟩ := hbody
  · simp
    decide
  · refine Below.append_iff.mpr ⟨hupper.mono (by decide), ?_⟩
    simp
    decide

theorem Leaves.leave_last {floor : Frame} {upper : List Frame}
    (hresume : ∀ reading, floor.resume reading = some floor) (hleaves : Leaves kind (upper ++ [floor])) :
    ∃ reading, floor.move kind = .leave reading := by
  generalize hstack : upper ++ [floor] = stack at hleaves
  induction hleaves generalizing upper with
  | nil => simp at hstack
  | @last top reading hleave =>
      obtain ⟨-, hfloor⟩ := List.append_eq_singleton_iff.mp hstack |>.resolve_right (by simp)
      cases hfloor
      exact ⟨reading, hleave⟩
  | @down top below resumed rest reading hleave hbelow hrest ih =>
      obtain _ | ⟨first, upper⟩ := upper
      · cases hstack
      · obtain ⟨rfl, hstack⟩ := List.cons.inj hstack
        obtain _ | ⟨second, upper⟩ := upper
        · cases hstack
          obtain rfl := Option.some.inj ((hresume _).symm.trans hbelow)
          exact @ih [] rfl
        · cases hstack
          exact @ih (resumed :: upper) rfl

/-- Nothing ends a struct type but its brace. -/
theorem InBody.not_leaves (hbody : InBody stack) : ¬ Leaves kind stack := by
  intro hleaves
  obtain rfl | ⟨upper, -, rfl⟩ := hbody
  · cases hleaves with
    | last hleave =>
        simp only [Frame.move, TypeFrame.move, startField] at hleave
        repeat' split at hleave
        all_goals cases hleave
  · obtain ⟨reading, hleave⟩ := hleaves.leave_last isFloor_fieldFloor.resume
    simp only [fieldFloor, Frame.move, TypeFrame.move] at hleave
    repeat' split at hleave
    all_goals cases hleave

theorem advance_nil (hadvance : advance [] kind = some (role, next)) : role = .trivia ∧ next = [] := by
  obtain ⟨htrivia, hnext, -⟩ | hread | ⟨mark, left, right, first, middle, -, -, hleft, -⟩ :=
    advance_cases hadvance
  · exact ⟨htrivia, hnext⟩
  · cases hread
  · cases hleft

/-- What stands between a point of the body of a struct type and its closing brace. -/
structure ReadsBody (stack : List Frame) (body : List Marked) (close : Marked) (last : List Frame) : Prop where
  reads : Reads stack body last
  inBody : InBody last
  roles : ∀ m ∈ body, m.role.IsBody
  role : close.role = .recordClose
  kind : close.kind = .mark .closeBrace
  closes : advance last (.mark .closeBrace) = some (.recordClose, [])

theorem ReadsBody.step {middle last : List Frame} {m close : Marked} {body : List Marked}
    (hadvance : advance stack m.kind = some (m.role, middle)) (hrole : m.role.IsBody)
    (hbody : ReadsBody middle body close last) : ReadsBody stack (m :: body) close last :=
  { hbody with
    reads := .step hadvance hbody.reads
    roles := List.forall_mem_cons.mpr ⟨hrole, hbody.roles⟩ }

namespace Reads

variable {marked : List Marked}

theorem of_nil (hreads : Reads [] marked next) : next = [] ∧ ∀ m ∈ marked, m.role = .trivia := by
  generalize hstack : ([] : List Frame) = stack at hreads
  induction hreads with
  | refl => exact ⟨rfl, by simp⟩
  | step hadvance _ ih =>
      subst hstack
      obtain ⟨htrivia, rfl⟩ := advance_nil hadvance
      obtain ⟨hnext, hrest⟩ := ih rfl
      exact ⟨hnext, List.forall_mem_cons.mpr ⟨htrivia, hrest⟩⟩

theorem split_close (hreads : Reads stack marked next) (hbody : InBody stack) :
    (InBody next ∧ ∀ m ∈ marked, m.role.IsBody) ∨
      ∃ body close rest last, marked = body ++ close :: rest ∧ ReadsBody stack body close last ∧
        Reads [] rest next := by
  induction hreads with
  | refl => exact .inl ⟨hbody, by simp⟩
  | @step stack middle final m marked hadvance hreads ih =>
      by_cases hclose : m.role = .recordClose
      · obtain ⟨hrole, -⟩ | ⟨hrole, -⟩ | ⟨hrole, -⟩ | ⟨hkind, -, rfl⟩ := hbody.step hadvance
        · cases hclose.symm.trans hrole
        · rw [hclose] at hrole
          exact absurd hrole (by decide)
        · cases hclose.symm.trans hrole
        · rw [hkind, hclose] at hadvance
          exact .inr ⟨[], m, marked, stack, rfl,
            ⟨.refl stack, hbody, by simp, hclose, hkind, hadvance⟩, hreads⟩
      · obtain ⟨hrole, hmiddle⟩ : m.role.IsBody ∧ InBody middle := by
          obtain ⟨hrole, rfl⟩ | ⟨hrole, hmiddle⟩ | ⟨hrole, hmiddle⟩ | ⟨-, hrole, -⟩ :=
            hbody.step hadvance
          · exact ⟨.inl hrole, hbody⟩
          · exact ⟨.inr (.inl hrole), .inr hmiddle⟩
          · exact ⟨.inr (.inr hrole), .inl hmiddle⟩
          · exact absurd hrole hclose
        obtain ⟨hnext, hroles⟩ | ⟨body, close, rest, last, rfl, hrun, hrest⟩ := ih hmiddle
        · exact .inl ⟨hnext, List.forall_mem_cons.mpr ⟨hrole, hroles⟩⟩
        · exact .inr ⟨m :: body, close, rest, last, rfl, hrun.step hadvance hrole, hrest⟩

theorem inBody (hreads : Reads stack marked next) (hbody : InBody stack) (hroles : ∀ m ∈ marked, m.role.IsBody) :
    InBody next := by
  obtain ⟨hnext, -⟩ | ⟨body, close, rest, last, rfl, hclosed, -⟩ := hreads.split_close hbody
  · exact hnext
  · have hrole := hroles close (by simp)
    rw [hclosed.role] at hrole
    exact absurd hrole Role.not_isBody_recordClose

theorem split_fields (hreads : Reads stack marked [.type (.fields true)]) (hbody : InBody stack)
    (hroles : ∀ m ∈ marked, m.role.IsBody) :
    (stack = [.type (.fields true)] ∧ ∀ m ∈ marked, m.role = .trivia) ∨
      ∃ before split after, marked = before ++ split :: after ∧ split.role = .recordSplit ∧
        ∀ m ∈ after, m.role = .trivia := by
  generalize hfinal : [Frame.type (.fields true)] = final at hreads
  induction hreads with
  | refl => exact .inl ⟨rfl, by simp⟩
  | @step stack middle final m marked hadvance hreads ih =>
      subst hfinal
      obtain ⟨hrole, hroles⟩ := List.forall_mem_cons.mp hroles
      obtain ⟨hmiddle, hsplit⟩ : InBody middle ∧ (middle = [.type (.fields true)] →
          (stack = [.type (.fields true)] ∧ m.role = .trivia) ∨ m.role = .recordSplit) := by
        obtain ⟨hm, rfl⟩ | ⟨-, upper, hupper, rfl⟩ | ⟨hm, hmiddle⟩ | ⟨-, hm, -⟩ := hbody.step hadvance
        · exact ⟨hbody, fun hfields => .inl ⟨hfields, hm⟩⟩
        · refine ⟨.inr ⟨upper, hupper, rfl⟩, fun hfields => ?_⟩
          obtain ⟨-, hfloor⟩ := List.append_eq_singleton_iff.mp hfields |>.resolve_right (by simp)
          cases hfloor
        · exact ⟨.inl hmiddle, fun _ => .inr hm⟩
        · rw [hm] at hrole
          obtain hrole | hrole | hrole := hrole
          · cases hrole
          · exact absurd hrole (by decide)
          · cases hrole
      obtain ⟨hfields, htrivia⟩ | ⟨before, split, after, rfl, hrest⟩ := ih hmiddle hroles rfl
      · obtain ⟨hstack, hm⟩ | hm := hsplit hfields
        · exact .inl ⟨hstack, List.forall_mem_cons.mpr ⟨hm, htrivia⟩⟩
        · exact .inr ⟨[], m, marked, rfl, hm, htrivia⟩
      · exact .inr ⟨m :: before, split, after, rfl, hrest⟩

end Reads

/-- A newline brings the machine to where a field can begin. -/
def Ready (stack : List Frame) : Prop :=
  stack = [.type (.fields true)] ∨ read stack .newline = some (.recordSplit, [.type (.fields true)])

theorem InBody.ready_of_close (hbody : InBody stack) (hstanding : Standing stack)
    (hclose : advance stack (.mark .closeBrace) = some (.recordClose, next)) : Ready stack := by
  obtain rfl | ⟨upper, hupper, rfl⟩ := hbody
  · exact .inl rfl
  · obtain ⟨rest, hrest, -⟩ | ⟨hleaves, -⟩ := advance_append isFloor_fieldFloor hclose
    · obtain ⟨htrivia, -⟩ | hlevel := (advance_below hrest hupper).1
      · cases htrivia
      · exact absurd hlevel (by decide)
    · right
      rw [read_of_leaves isFloor_fieldFloor.resume (hleaves.newline hstanding)]
      rfl

theorem advance_white (hwhite : Scan.isWhite kind) (hadvance : advance stack kind = some (role, next)) :
    (role = .trivia ∧ next = stack) ∨ (kind = .newline ∧ read stack .newline = some (role, next)) := by
  obtain ⟨htrivia, hnext, -⟩ | hread | ⟨mark, left, right, first, middle, hkind, -⟩ :=
    advance_cases hadvance
  · exact .inl ⟨htrivia, hnext⟩
  · cases kind
    case newline => exact .inr ⟨rfl, hread⟩
    case blank =>
      obtain ⟨rfl, rfl⟩ := Prod.mk.inj (Option.some.inj hadvance)
      exact .inl ⟨rfl, rfl⟩
    all_goals cases hwhite
  · rw [hkind] at hwhite
    cases hwhite

theorem Reads.rested {rested : Frame} {below : List Frame} {white : List Marked}
    (hreads : Reads (rested :: below) white next) (hrested : rested.IsRested)
    (hstanding : Standing (rested :: below)) (hwhite : ∀ m ∈ white, Scan.isWhite m.kind) :
    next = rested :: below := by
  generalize hstack : rested :: below = stack at hreads
  induction hreads with
  | refl => rfl
  | step hadvance _ ih =>
      subst hstack
      obtain ⟨hm, hwhite⟩ := List.forall_mem_cons.mp hwhite
      obtain ⟨-, rfl⟩ | ⟨-, hread⟩ := advance_white hm hadvance
      · exact ih hwhite rfl
      · cases (hrested.read hstanding).1.symm.trans hread

/-- Before the closing brace white space only parts fields, and a field can be written before it. -/
theorem Reads.white_before_close {white : List Marked} (hreads : Reads stack white next)
    (hbody : InBody stack) (hstanding : Standing stack) (hwhite : ∀ m ∈ white, Scan.isWhite m.kind)
    (hclose : advance next (.mark .closeBrace) = some (.recordClose, [])) :
    Ready stack ∧ ∀ m ∈ white, m.role = .trivia ∨ m.role = .recordSplit := by
  induction hreads with
  | refl => exact ⟨hbody.ready_of_close hstanding hclose, by simp⟩
  | @step stack middle final m white hadvance hreads ih =>
      obtain ⟨hm, hwhite⟩ := List.forall_mem_cons.mp hwhite
      obtain ⟨hrole, rfl⟩ | ⟨-, hread⟩ := advance_white hm hadvance
      · obtain ⟨hready, hroles⟩ := ih hbody hstanding hwhite hclose
        exact ⟨hready, List.forall_mem_cons.mpr ⟨.inl hrole, hroles⟩⟩
      · obtain ⟨frame, bottom, pushed, hsettles, hmove, rfl⟩ := read_eq_some_iff.mp hread
        have hmiddle := hstanding.read (hbody.below.mono (by decide)) hread
        obtain ⟨hrole, rfl⟩ | ⟨rested, rfl, hrested⟩ :=
          frame.take_newline (hsettles.level_le hbody.below).1 hmove
        · have hfields : [.type (.fields true)] ++ bottom = [.type (.fields true)] := by
            rw [hrole] at hadvance
            obtain ⟨hrole, -⟩ | ⟨hrole, -⟩ | ⟨-, hfields⟩ | ⟨-, hrole, -⟩ := hbody.step hadvance
            · cases hrole
            · exact absurd hrole (by decide)
            · exact hfields
            · cases hrole
          rw [hfields] at ih hmiddle hread
          rw [hrole] at hread
          obtain ⟨-, hroles⟩ := ih (.inl rfl) hmiddle hwhite hclose
          exact ⟨.inr hread, List.forall_mem_cons.mpr ⟨.inr hrole, hroles⟩⟩
        · obtain rfl := hreads.rested hrested hmiddle hwhite
          obtain ⟨hrole, -⟩ | hbrace | ⟨mark, left, right, first, other, hmark, hhalves, -⟩ :=
            advance_cases hclose
          · cases hrole
          · exact absurd hbrace ((hrested.read hmiddle).2 [])
          · cases hmark
            cases hhalves

/-- Lexemes that are read as trivia. -/
def asTrivia (lexemes : List Lexeme) : List Marked :=
  lexemes.map (⟨·, .trivia⟩)

@[simp]
theorem map_lexeme_asTrivia (lexemes : List Lexeme) : (asTrivia lexemes).map Marked.lexeme = lexemes := by
  rw [asTrivia, List.map_map]
  exact List.map_id lexemes

theorem role_of_mem_asTrivia {lexemes : List Lexeme} : ∀ m ∈ asTrivia lexemes, m.role = .trivia := by
  simp [asTrivia]

theorem reads_trivial {lexemes : List Lexeme} (htrivial : ∀ lexeme ∈ lexemes, Scan.isTrivial lexeme.kind) :
    Reads [.type (.fields true)] (asTrivia lexemes) [.type (.fields true)] := by
  induction lexemes with
  | nil => exact .refl _
  | cons lexeme lexemes ih =>
      obtain ⟨hlexeme, hlexemes⟩ := List.forall_mem_cons.mp htrivial
      refine .step ?_ (ih hlexemes)
      obtain ⟨kind, text⟩ := lexeme
      cases kind <;> first | rfl | cases hlexeme

/-- White space with a newline brings a machine that is ready to where a field can begin. -/
theorem Ready.reads_white {white : List Lexeme} (hready : Ready stack)
    (hwhite : ∀ lexeme ∈ white, Scan.isWhite lexeme.kind)
    (hnewline : ∃ lexeme ∈ white, lexeme.kind = .newline) :
    ∃ marked, marked.map Marked.lexeme = white ∧ Reads stack marked [.type (.fields true)] ∧
      (∀ m ∈ marked, m.role = .trivia ∨ m.role = .recordSplit) ∧
      (stack = [.type (.fields true)] ∨ ∃ m ∈ marked, m.role = .recordSplit) := by
  have hfields {white : List Lexeme} (hwhite : ∀ lexeme ∈ white, Scan.isWhite lexeme.kind) :=
    reads_trivial fun lexeme hlexeme => Scan.isTrivial_of_isWhite (hwhite lexeme hlexeme)
  have hroles (white : List Lexeme) : ∀ m ∈ asTrivia white, m.role = .trivia ∨ m.role = .recordSplit :=
    fun m hm => .inl (role_of_mem_asTrivia m hm)
  obtain rfl | hread := hready
  · exact ⟨asTrivia white, map_lexeme_asTrivia white, hfields hwhite, hroles white, .inl rfl⟩
  · induction white with
    | nil => simp at hnewline
    | cons lexeme white ih =>
        obtain ⟨kind, text⟩ := lexeme
        obtain ⟨hlexeme, hrest⟩ := List.forall_mem_cons.mp hwhite
        cases kind
        case newline =>
          refine ⟨⟨⟨.newline, text⟩, .recordSplit⟩ :: asTrivia white, by simp, ?_,
            List.forall_mem_cons.mpr ⟨.inr rfl, hroles white⟩, .inr ⟨_, List.mem_cons_self, rfl⟩⟩
          exact .step (by simp [Marked.kind, advance, hread]) (hfields hrest)
        case blank =>
          obtain ⟨marked, rfl, hreads, hroles, hsplit⟩ := ih hrest (by simpa using hnewline)
          refine ⟨⟨⟨.blank, text⟩, .trivia⟩ :: marked, rfl, .step rfl hreads,
            List.forall_mem_cons.mpr ⟨.inl rfl, hroles⟩, hsplit.imp_right ?_⟩
          rintro ⟨m, hm, hrole⟩
          exact ⟨m, List.mem_cons_of_mem _ hm, hrole⟩
        all_goals cases hlexeme

end GoGraft.Grammar
