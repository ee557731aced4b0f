import GoGraft.Proofs.Levels
import GoGraft.Proofs.Reads

/-!
# Stacks and the frames that read

One frame reads a lexeme: the first, from the top, that does not end before it. What this frame does is known by its
level, and what stands below it is not touched. A run on a stack therefore either stays above a given frame of the
stack, or leaves all that stands above that frame.
-/

namespace GoGraft.Grammar

variable {kind : LexemeKind} {role : Role} {stack next : List Frame}

/-- All frames end before the lexeme. -/
inductive Leaves (kind : LexemeKind) : List Frame → Prop where
  | nil : Leaves kind []
  | last {top : Frame} {reading : Reading} (hleave : top.move kind = .leave reading) :
      Leaves kind [top]
  | down {top below resumed : Frame} {rest : List Frame} {reading : Reading}
      (hleave : top.move kind = .leave reading) (hresume : below.resume reading = some resumed)
      (hrest : Leaves kind (resumed :: rest)) : Leaves kind (top :: below :: rest)

/-- A frame that reads the lexeme, and the frames below it. -/
inductive Settles (kind : LexemeKind) : List Frame → Frame → List Frame → Prop where
  | here (frame : Frame) (rest : List Frame) : Settles kind (frame :: rest) frame rest
  | down {top below resumed frame : Frame} {rest bottom : List Frame} {reading : Reading}
      (hleave : top.move kind = .leave reading) (hresume : below.resume reading = some resumed)
      (hrest : Settles kind (resumed :: rest) frame bottom) :
      Settles kind (top :: below :: rest) frame bottom

theorem settles_of_settle {top : Frame} {below : List Frame}
    (hsettle : settle top below kind = some (role, next)) :
    ∃ frame bottom pushed, Settles kind (top :: below) frame bottom ∧
      frame.move kind = .take role pushed ∧ next = pushed ++ bottom := by
  fun_induction settle top below kind with
  | case1 below top role pushed hmove =>
      obtain ⟨rfl, rfl⟩ := Prod.mk.inj (Option.some.inj hsettle)
      exact ⟨top, below, pushed, .here top below, hmove, rfl⟩
  | case2 | case3 | case5 => cases hsettle
  | case4 top reading hleave below rest resumed hresume ih =>
      obtain ⟨frame, bottom, pushed, hsettles, hmove, hnext⟩ := ih hsettle
      exact ⟨frame, bottom, pushed, .down hleave hresume hsettles, hmove, hnext⟩

theorem read_of_settles {frame : Frame} {bottom pushed : List Frame}
    (hsettles : Settles kind stack frame bottom) (hmove : frame.move kind = .take role pushed) :
    read stack kind = some (role, pushed ++ bottom) := by
  induction hsettles with
  | here frame rest =>
      rw [read, settle.eq_def, hmove]
  | down hleave hresume _ ih =>
      rw [read, settle, hleave]
      simp only [hresume]
      exact ih hmove

theorem read_eq_some_iff : read stack kind = some (role, next) ↔
    ∃ frame bottom pushed, Settles kind stack frame bottom ∧
      frame.move kind = .take role pushed ∧ next = pushed ++ bottom := by
  constructor
  · intro hread
    cases stack with
    | nil => cases hread
    | cons top below => exact settles_of_settle hread
  · rintro ⟨frame, bottom, pushed, hsettles, hmove, rfl⟩
    exact read_of_settles hsettles hmove

namespace Settles

variable {frame : Frame} {bottom : List Frame} {level : Nat}

theorem level_le (hsettles : Settles kind stack frame bottom) (hbelow : Below level stack) :
    frame.level ≤ level ∧ Below level bottom := by
  induction hsettles with
  | here frame rest => exact Below.cons_iff.mp hbelow
  | down hleave hresume hrest ih =>
      obtain ⟨-, hbelow⟩ := Below.cons_iff.mp hbelow
      obtain ⟨hlevel, hbelow⟩ := Below.cons_iff.mp hbelow
      exact ih (Below.cons_iff.mpr ⟨Nat.le_trans (Frame.resume_level hresume) hlevel, hbelow⟩)

theorem append (hsettles : Settles kind stack frame bottom) (more : List Frame) :
    Settles kind (stack ++ more) frame (bottom ++ more) := by
  induction hsettles with
  | here frame rest => exact .here frame (rest ++ more)
  | down hleave hresume _ ih => exact .down hleave hresume ih

/-- The frame that reads stands above a frame that stays, or is reached through it. -/
theorem of_append {floor : Frame} {upper more : List Frame}
    (hresume : ∀ reading, floor.resume reading = some floor)
    (hsettles : Settles kind (upper ++ floor :: more) frame bottom) :
    (∃ rest, Settles kind upper frame rest ∧ bottom = rest ++ floor :: more) ∨
      (Leaves kind upper ∧ Settles kind (floor :: more) frame bottom) := by
  generalize hstack : upper ++ floor :: more = stack at hsettles
  induction hsettles generalizing upper with
  | here frame rest =>
      cases upper with
      | nil =>
          cases hstack
          exact .inr ⟨.nil, .here floor more⟩
      | cons top upper =>
          cases hstack
          exact .inl ⟨upper, .here _ upper, rfl⟩
  | down hleave hbelow hrest ih =>
      cases upper with
      | nil =>
          cases hstack
          exact .inr ⟨.nil, .down hleave hbelow hrest⟩
      | cons top upper =>
          cases upper with
          | nil =>
              cases hstack
              obtain rfl := Option.some.inj ((hresume _).symm.trans hbelow)
              exact .inr ⟨.last hleave, hrest⟩
          | cons below upper =>
              cases hstack
              obtain ⟨rest, hsettles, hbottom⟩ | ⟨hleaves, hsettles⟩ := @ih (_ :: upper) rfl
              · exact .inl ⟨rest, .down hleave hbelow hsettles, hbottom⟩
              · exact .inr ⟨.down hleave hbelow hleaves, hsettles⟩

end Settles

theorem read_below {level : Nat} (hread : read stack kind = some (role, next))
    (hbelow : Below level stack) : role.level ≤ level ∧ Below level next := by
  obtain ⟨frame, bottom, pushed, hsettles, hmove, rfl⟩ := read_eq_some_iff.mp hread
  obtain ⟨hlevel, hbottom⟩ := hsettles.level_le hbelow
  obtain ⟨hrole, hpushed⟩ := (frame.move_within kind).of_take hmove
  exact ⟨Nat.le_trans hrole hlevel, Below.append_iff.mpr ⟨hpushed.mono hlevel, hbottom⟩⟩

/-- The ways to read a lexeme: as trivia, as it is, or in two halves. -/
theorem advance_cases (hadvance : advance stack kind = some (role, next)) :
    (role = .trivia ∧ next = stack ∧ (kind = .blank ∨ kind = .comment ∨ kind = .newline)) ∨
      read stack kind = some (role, next) ∨
      ∃ mark left right first middle, kind = .mark mark ∧ halves mark = some (left, right) ∧
        read stack (.mark left) = some (first, middle) ∧
        read middle (.mark right) = some (role, next) := by
  unfold advance at hadvance
  split at hadvance
  case h_1 | h_2 =>
    obtain ⟨rfl, rfl⟩ := Prod.mk.inj (Option.some.inj hadvance)
    simp
  case h_3 =>
    cases hread : read stack .newline with
    | some result =>
        rw [hread] at hadvance
        exact .inr (.inl hadvance)
    | none =>
        rw [hread] at hadvance
        obtain ⟨rfl, rfl⟩ := Prod.mk.inj (Option.some.inj hadvance)
        simp
  case h_4 mark =>
    cases hread : read stack (.mark mark) with
    | some result =>
        rw [hread] at hadvance
        exact .inr (.inl hadvance)
    | none =>
        rw [hread] at hadvance
        obtain ⟨⟨left, right⟩, hhalves, hadvance⟩ := Option.bind_eq_some_iff.mp hadvance
        obtain ⟨⟨first, middle⟩, hleft, hright⟩ := Option.bind_eq_some_iff.mp hadvance
        exact .inr (.inr ⟨mark, left, right, first, middle, rfl, hhalves, hleft, hright⟩)
  case h_5 => exact .inr (.inl hadvance)

theorem advance_below {level : Nat} (hadvance : advance stack kind = some (role, next))
    (hbelow : Below level stack) :
    (role = .trivia ∧ next = stack ∨ role.level ≤ level) ∧ Below level next := by
  obtain ⟨rfl, rfl, -⟩ | hread | ⟨mark, left, right, first, middle, -, -, hleft, hright⟩ :=
    advance_cases hadvance
  · exact ⟨.inl ⟨rfl, rfl⟩, hbelow⟩
  · obtain ⟨hrole, hnext⟩ := read_below hread hbelow
    exact ⟨.inr hrole, hnext⟩
  · obtain ⟨hrole, hnext⟩ := read_below hright (read_below hleft hbelow).2
    exact ⟨.inr hrole, hnext⟩

/-- A frame that stays when what stands above it has ended, and that knows no half of a mark. -/
structure Frame.IsFloor (floor : Frame) : Prop where
  resume (reading : Reading) : floor.resume reading = some floor
  refuse {mark left right : Mark} (hhalves : halves mark = some (left, right)) :
    floor.move (.mark left) = .refuse ∧ floor.move (.mark right) = .refuse

theorem read_append {floor : Frame} {upper bottom : List Frame}
    (hresume : ∀ reading, floor.resume reading = some floor)
    (hread : read (upper ++ floor :: bottom) kind = some (role, next)) :
    (∃ rest, read upper kind = some (role, rest) ∧ next = rest ++ floor :: bottom) ∨
      (Leaves kind upper ∧ read (floor :: bottom) kind = some (role, next)) := by
  obtain ⟨frame, rest, pushed, hsettles, hmove, rfl⟩ := read_eq_some_iff.mp hread
  obtain ⟨rest, hupper, rfl⟩ | ⟨hleaves, hfloor⟩ := hsettles.of_append hresume
  · exact .inl ⟨pushed ++ rest, read_of_settles hupper hmove, by simp⟩
  · exact .inr ⟨hleaves, read_of_settles hfloor hmove⟩

theorem read_append_left {upper rest : List Frame} (hread : read upper kind = some (role, rest))
    (bottom : List Frame) : read (upper ++ bottom) kind = some (role, rest ++ bottom) := by
  obtain ⟨frame, rest, pushed, hsettles, hmove, rfl⟩ := read_eq_some_iff.mp hread
  rw [read_of_settles (hsettles.append bottom) hmove, List.append_assoc]

theorem read_none_left {upper bottom : List Frame} (hread : read (upper ++ bottom) kind = none) :
    read upper kind = none := by
  cases hupper : read upper kind with
  | none => rfl
  | some result => exact nomatch hread.symm.trans (read_append_left hupper bottom)

theorem advance_append {floor : Frame} {upper bottom : List Frame} (hfloor : floor.IsFloor)
    (hadvance : advance (upper ++ floor :: bottom) kind = some (role, next)) :
    (∃ rest, advance upper kind = some (role, rest) ∧ next = rest ++ floor :: bottom) ∨
      (Leaves kind upper ∧ read (floor :: bottom) kind = some (role, next)) := by
  unfold advance at hadvance ⊢
  split at hadvance
  case h_1 | h_2 =>
    obtain ⟨rfl, rfl⟩ := Prod.mk.inj (Option.some.inj hadvance)
    exact .inl ⟨upper, rfl, rfl⟩
  case h_3 =>
    cases hread : read (upper ++ floor :: bottom) .newline with
    | some result =>
        rw [hread] at hadvance
        obtain rfl := Option.some.inj hadvance
        obtain ⟨rest, hrest, hnext⟩ | hleaves := read_append hfloor.resume hread
        · exact .inl ⟨rest, by simp [hrest], hnext⟩
        · exact .inr hleaves
    | none =>
        rw [hread] at hadvance
        obtain ⟨rfl, rfl⟩ := Prod.mk.inj (Option.some.inj hadvance)
        exact .inl ⟨upper, by simp [read_none_left hread], rfl⟩
  case h_4 mark =>
    cases hread : read (upper ++ floor :: bottom) (.mark mark) with
    | some result =>
        rw [hread] at hadvance
        obtain rfl := Option.some.inj hadvance
        obtain ⟨rest, hrest, hnext⟩ | hleaves := read_append hfloor.resume hread
        · exact .inl ⟨rest, by simp [hrest], hnext⟩
        · exact .inr hleaves
    | none =>
        rw [hread] at hadvance
        rw [read_none_left hread]
        obtain ⟨⟨left, right⟩, hhalves, hadvance⟩ := Option.bind_eq_some_iff.mp hadvance
        obtain ⟨⟨first, middle⟩, hleft, hright⟩ := Option.bind_eq_some_iff.mp hadvance
        -- The floor refuses either half, so that both are read above it.
        obtain ⟨hrefuse, hrefuse'⟩ := hfloor.refuse hhalves
        have hnone (mark : Mark) (hmove : floor.move (.mark mark) = .refuse) :
            read (floor :: bottom) (.mark mark) = none := by
          cases bottom <;> simp [read, settle, hmove]
        obtain ⟨rest, hrest, rfl⟩ | ⟨-, hread⟩ := read_append hfloor.resume hleft
        · obtain ⟨rest', hrest', hnext⟩ | ⟨-, hread⟩ := read_append hfloor.resume hright
          · refine .inl ⟨rest', ?_, hnext⟩
            simp [readHalves, hhalves, hrest, hrest']
          · rw [hnone right hrefuse'] at hread
            cases hread
        · rw [hnone left hrefuse] at hread
          cases hread
  case h_5 =>
    obtain ⟨rest, hrest, hnext⟩ | hleaves := read_append hfloor.resume hadvance
    · exact .inl ⟨rest, by simpa using hrest, hnext⟩
    · exact .inr hleaves

/-- What is read above a floor without leaving for it is read alone. -/
theorem advance_over {floor : Frame} {upper : List Frame} (bottom : List Frame) (hfloor : floor.IsFloor)
    (hadvance : advance upper kind = some (role, next)) (hstays : ¬ Leaves kind upper) :
    advance (upper ++ floor :: bottom) kind = some (role, next ++ floor :: bottom) := by
  have hnone {kind : LexemeKind} (hstays : ¬ Leaves kind upper) (hread : read upper kind = none) :
      read (upper ++ floor :: bottom) kind = none := by
    cases hboth : read (upper ++ floor :: bottom) kind with
    | none => rfl
    | some result =>
        obtain ⟨rest, hrest, -⟩ | ⟨hleaves, -⟩ := read_append hfloor.resume hboth
        · cases hread.symm.trans hrest
        · exact absurd hleaves hstays
  unfold advance at hadvance ⊢
  split at hadvance
  case h_1 | h_2 =>
    obtain ⟨rfl, rfl⟩ := Prod.mk.inj (Option.some.inj hadvance)
    rfl
  case h_3 =>
    cases hread : read upper .newline with
    | some result =>
        rw [hread] at hadvance
        obtain rfl := Option.some.inj hadvance
        rw [read_append_left hread]
        rfl
    | none =>
        rw [hread] at hadvance
        obtain ⟨rfl, rfl⟩ := Prod.mk.inj (Option.some.inj hadvance)
        rw [hnone hstays hread]
        rfl
  case h_4 mark =>
    cases hread : read upper (.mark mark) with
    | some result =>
        rw [hread] at hadvance
        obtain rfl := Option.some.inj hadvance
        rw [read_append_left hread]
        rfl
    | none =>
        rw [hread] at hadvance
        obtain ⟨⟨left, right⟩, hhalves, hadvance⟩ := Option.bind_eq_some_iff.mp hadvance
        obtain ⟨⟨first, middle⟩, hleft, hright⟩ := Option.bind_eq_some_iff.mp hadvance
        simp [hnone hstays hread, readHalves, hhalves, read_append_left hleft, read_append_left hright]
  case h_5 => exact read_append_left hadvance _

namespace Reads

variable {marked : List Marked} {level : Nat}

theorem level_le (hreads : Reads stack marked next) (hbelow : Below level stack) :
    Below level next ∧ ∀ m ∈ marked, m.role = .trivia ∨ m.role.level ≤ level := by
  induction hreads with
  | refl => exact ⟨hbelow, by simp⟩
  | step hadvance _ ih =>
      obtain ⟨hrole, hbelow⟩ := advance_below hadvance hbelow
      obtain ⟨hlast, hrest⟩ := ih hbelow
      exact ⟨hlast, List.forall_mem_cons.mpr ⟨hrole.imp_left And.left, hrest⟩⟩

/-- A run stays above a frame, or comes to a lexeme that this frame reads. -/
theorem split_floor {floor : Frame} {upper bottom : List Frame} (hfloor : floor.IsFloor)
    (hreads : Reads (upper ++ floor :: bottom) marked next) :
    (∃ rest, Reads upper marked rest ∧ next = rest ++ floor :: bottom) ∨
      ∃ before m after rest middle, marked = before ++ m :: after ∧ Reads upper before rest ∧
        Leaves m.kind rest ∧ read (floor :: bottom) m.kind = some (m.role, middle) ∧
        Reads middle after next := by
  generalize hstack : upper ++ floor :: bottom = stack at hreads
  induction hreads generalizing upper with
  | refl => exact .inl ⟨upper, .refl upper, hstack.symm⟩
  | @step _ _ _ m marked hadvance hreads ih =>
      subst hstack
      obtain ⟨rest, hupper, rfl⟩ | ⟨hleaves, hread⟩ := advance_append hfloor hadvance
      · obtain ⟨last, hlast, hnext⟩ | ⟨before, m', after, last, middle, rfl, hbefore, hlast⟩ := ih rfl
        · exact .inl ⟨last, .step hupper hlast, hnext⟩
        · exact .inr ⟨m :: before, m', after, last, middle, rfl, .step hupper hbefore, hlast⟩
      · exact .inr ⟨[], m, marked, upper, _, rfl, .refl upper, hleaves, hread, hreads⟩

end Reads

theorem advance_trivia (hadvance : advance stack kind = some (.trivia, next)) (hbelow : Below 5 stack) :
    next = stack ∧ (kind = .blank ∨ kind = .comment ∨ kind = .newline) := by
  obtain ⟨-, hnext, hkind⟩ | hread | ⟨mark, left, right, first, middle, -, -, hleft, hright⟩ :=
    advance_cases hadvance
  · exact ⟨hnext, hkind⟩
  · exact absurd (read_below hread hbelow).1 (by decide)
  · exact absurd (read_below hright (read_below hleft hbelow).2).1 (by decide)

/-- The frames before and after a statement of a list. A semicolon is an empty statement before one, and ends it after
one. -/
def Frame.awaitsStatement : Frame → Bool
  | .stmt .statements | .stmt .statementEnd | .stmt .labelled => true
  | _ => false

theorem Frame.eq_of_awaitsStatement {frame : Frame} (hframe : frame.awaitsStatement) :
    frame = .stmt .statements ∨ frame = .stmt .statementEnd ∨ frame = .stmt .labelled := by
  unfold awaitsStatement at hframe
  split at hframe
  case h_4 => cases hframe
  all_goals simp

/-- A newline, a terminator and a closing brace end the same constructs. -/
theorem Frame.leave_iff {frame : Frame} {reading : Reading} (hframe : ¬ frame.awaitsStatement)
    (hkind : isTerminator kind ∨ kind = .mark .closeBrace) :
    frame.move kind = .leave reading ↔ frame.move .newline = .leave reading := by
  have hkinds : kind = .newline ∨ kind = .mark .semicolon ∨ kind = .mark .zero ∨ kind = .mark .closeBrace := by
    obtain hterminator | rfl := hkind
    · unfold isTerminator at hterminator
      split at hterminator
      case h_4 => cases hterminator
      all_goals simp
    · simp
  obtain rfl | hkinds := hkinds
  · rfl
  obtain rfl | rfl | rfl := hkinds
  all_goals
  cases frame with
  | type frame =>
      cases frame
      case nameEnd top value type => cases value <;> cases type <;> rfl
      all_goals first
        | rfl
        | constructor <;> intro hleave <;> cases hleave
  | expr frame =>
      cases frame
      case chain soFar site => cases soFar <;> rfl
      all_goals first
        | rfl
        | constructor <;> intro hleave <;> cases hleave
  | stmt frame =>
      cases frame
      case statements | statementEnd | labelled => exact absurd rfl hframe
      case simpleEnd place word => cases place <;> rfl
      case forEnd body clause => cases clause <;> constructor <;> intro hleave <;> cases hleave
      all_goals first
        | rfl
        | constructor <;> intro hleave <;> cases hleave
  | decl frame =>
      cases frame
      case typeParameterIndexEnd top shape value =>
        refine iff_of_false ?_ ?_
        all_goals
          intro hleave
          simp only [Frame.move, DeclFrame.move] at hleave
          repeat' split at hleave
          all_goals cases hleave
      all_goals first
        | rfl
        | constructor <;> intro hleave <;> cases hleave
  | expect due =>
      simp only [Frame.move]
      constructor <;> intro hleave <;> split at hleave <;> cases hleave
  | word => constructor <;> intro hleave <;> cases hleave
  | finished => rfl

theorem Shape.move_stray (shape : Shape) (site : Site) :
    shape.move site .stray ≠ .take role next := by
  simp only [Shape.move]
  split <;> simp

theorem Frame.move_stray {frame : Frame} {pushed : List Frame} (hlevel : frame.level ≤ 5) :
    frame.move .stray ≠ .take role pushed := by
  cases frame with
  | type frame =>
      cases frame
      case nameEnd top value type => cases value <;> cases type <;> intro htake <;> cases htake
      all_goals
        intro htake
        cases htake
  | expr frame =>
      cases frame
      case postfixes shape site => exact shape.move_stray site
      case functionResult site | functionBody site => exact Shape.bare.move_stray site
      case chain soFar site => cases soFar <;> intro htake <;> cases htake
      all_goals
        intro htake
        cases htake
  | stmt frame => cases frame <;> intro htake <;> cases htake
  | decl frame =>
      cases frame
      case typeParameterIndexEnd top shape value =>
        have hstart : (if value then startConstraint .stray else none) = none := by
          cases value <;> rfl
        simp only [Frame.move, DeclFrame.move, hstart]
        split
        case h_1 hmove => exact absurd hmove (shape.move_stray .free)
        all_goals
          intro htake
          cases htake
      all_goals
        intro htake
        cases htake
  | expect due =>
      simp only [Frame.move]
      split
      · rename_i hdue
        rw [← hdue] at hlevel
        exact absurd hlevel (by decide)
      · intro htake
        cases htake
  | word | finished =>
      intro htake
      cases htake

theorem advance_stray (hbelow : Below 5 stack) : advance stack .stray = none := by
  cases hadvance : advance stack .stray with
  | none => rfl
  | some result =>
      obtain ⟨frame, bottom, pushed, hsettles, hmove, -⟩ := read_eq_some_iff.mp hadvance
      exact absurd hmove (Frame.move_stray (hsettles.level_le hbelow).1)

theorem Reads.ne_stray {marked : List Marked} (hreads : Reads stack marked next) (hbelow : Below 5 stack) :
    ∀ m ∈ marked, m.kind ≠ .stray := by
  induction hreads with
  | refl => simp
  | step hadvance _ ih =>
      refine List.forall_mem_cons.mpr ⟨?_, ih (advance_below hadvance hbelow).2⟩
      intro hstray
      rw [hstray, advance_stray hbelow] at hadvance
      cases hadvance

theorem Reads.role_of_blank {marked : List Marked} (hreads : Reads stack marked next) :
    ∀ m ∈ marked, m.kind = .blank → m.role = .trivia := by
  induction hreads with
  | refl => simp
  | step hadvance _ ih =>
      refine List.forall_mem_cons.mpr ⟨?_, ih⟩
      intro hblank
      rw [hblank] at hadvance
      exact (Prod.mk.inj (Option.some.inj hadvance)).1.symm

end GoGraft.Grammar
