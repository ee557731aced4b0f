import GoGraft.Proofs.Stacks

/-!
# What frames stand on

Some frames are only ever found on certain others: statements stand in a block or a clause, and the frames of a
top-level type specification have nothing below them. Stacks on which this holds stay so. It shows that where a closing
brace ends all that is open above a field, a newline does too.
-/

namespace GoGraft.Grammar

/-- What a frame needs below it. -/
inductive Footing where
  | free
  | block
  | statement
  | constraint
  | ground
deriving DecidableEq

def Frame.footing : Frame → Footing
  | .stmt .statements | .stmt .statementEnd => .block
  | .stmt .labelled | .stmt (.simple .statement) | .stmt (.simpleEnd .statement _) => .statement
  | .type (.constraint true) | .type (.constraintName true) | .type (.constraintEnd true)
  | .type (.moreConstraints true) => .constraint
  | frame => if frame.level ≤ 1 then .free else .ground

/-- Nothing stands on the list of fields itself, other than on one of its fields. -/
def Footing.Holds : Footing → List Frame → Prop
  | .free, below => below.head? ≠ some (.type (.fields true))
  | .block, below => ∃ floor rest, below = floor :: rest ∧
      (floor = .stmt .blockEnd ∨ ∃ held, floor = .stmt (.clauses held))
  | .statement, below => ∃ rest, below = .stmt .statementEnd :: rest
  | .constraint, below => below = [.decl (.typeBody true)]
  | .ground, below => below = []

def Standing : List Frame → Prop
  | [] => True
  | frame :: below => frame.footing.Holds below ∧ Standing below

/-- A stack on which frames without needs can stand. -/
def Carries (below : List Frame) : Prop :=
  Standing below ∧ below.head? ≠ some (.type (.fields true))

/-- Frames that can be put on any such stack, with a stack of this kind as the result. -/
def Closed (frames : List Frame) : Prop :=
  ∀ below, Carries below → Carries (frames ++ below)

namespace Closed

variable {left right frames : List Frame} {frame : Frame}

theorem nil : Closed [] := fun _ hbelow => hbelow

theorem append (hleft : Closed left) (hright : Closed right) : Closed (left ++ right) := by
  intro below hbelow
  rw [List.append_assoc]
  exact hleft _ (hright below hbelow)

theorem cons (hfree : frame.footing = .free) (hframes : Closed frames) : Closed (frame :: frames) := by
  intro below hbelow
  obtain ⟨hstanding, hhead⟩ := hframes below hbelow
  refine ⟨⟨?_, hstanding⟩, ?_⟩
  · rw [hfree]
    exact hhead
  · intro hfields
    obtain rfl := Option.some.inj hfields
    cases hfree

theorem block : Closed block := by
  intro below hbelow
  have hend : Carries (.stmt .blockEnd :: below) := cons rfl nil below hbelow
  refine ⟨⟨⟨_, below, rfl, .inl rfl⟩, hend.1⟩, ?_⟩
  nofun

theorem clause (held : Clauses) : Closed [.stmt .statements, .stmt (.clauses held)] := by
  intro below hbelow
  have hend : Carries (.stmt (.clauses held) :: below) := cons rfl nil below hbelow
  refine ⟨⟨⟨_, below, rfl, .inr ⟨held, rfl⟩⟩, hend.1⟩, ?_⟩
  nofun

end Closed

def Move.Closes : Move → Prop
  | .take _ next => Closed next
  | .leave _ | .refuse => True

theorem Move.closes_ofStart {role : Role} {rest : List Frame} {start : Option (List Frame)}
    (hrest : Closed rest) (hstart : ∀ frames ∈ start, Closed frames) :
    (Move.ofStart role rest start).Closes := by
  cases start with
  | none => trivial
  | some frames => exact (hstart frames rfl).append hrest

theorem Move.Closes.of_take {move : Move} {role : Role} {next : List Frame} (hcloses : move.Closes)
    (htake : move = .take role next) : Closed next := by
  rwa [htake] at hcloses

theorem closed_startType {kind : LexemeKind} {frames : List Frame}
    (hstart : frames ∈ startType false kind) : Closed frames := by
  unfold startType at hstart
  split at hstart <;> cases hstart
  all_goals
    repeat' apply Closed.cons
    all_goals first | rfl | exact .nil

theorem closed_startOperand {site : Site} {kind : LexemeKind} {frames : List Frame}
    (hstart : frames ∈ startOperand site kind) : Closed frames := by
  unfold startOperand at hstart
  split at hstart <;> cases hstart
  all_goals
    repeat' apply Closed.cons
    all_goals first | rfl | exact .nil

theorem closed_startExpression {site : Site} {kind : LexemeKind} {frames : List Frame}
    (hstart : frames ∈ startExpression site kind) : Closed frames := by
  obtain ⟨operand, hoperand, rfl⟩ := Option.map_eq_some_iff.mp hstart
  exact (closed_startOperand hoperand).append (.cons rfl .nil)

theorem closed_startSimple {place : Place} (hplace : place ≠ .statement) {kind : LexemeKind}
    {frames : List Frame} (hstart : frames ∈ startSimple place kind) : Closed frames := by
  obtain ⟨expression, hexpression, rfl⟩ := Option.map_eq_some_iff.mp hstart
  refine (closed_startExpression hexpression).append (.cons ?_ .nil)
  cases place <;> first | rfl | exact absurd rfl hplace

theorem closed_startParameter {kind : LexemeKind} {frames : List Frame}
    (hstart : frames ∈ startParameter kind) : Closed frames := by
  unfold startParameter at hstart
  split at hstart
  · cases hstart
    exact .cons rfl (.cons rfl .nil)
  · split at hstart
    · cases hstart
      exact .cons rfl (.cons rfl .nil)
    · obtain ⟨type, htype, rfl⟩ := Option.map_eq_some_iff.mp hstart
      exact (closed_startType htype).append (.cons rfl .nil)

theorem closed_startConstraint {kind : LexemeKind} {frames : List Frame}
    (hstart : frames ∈ startConstraint kind) : Closed frames := by
  unfold startConstraint at hstart
  split at hstart
  all_goals first
    | exact closed_startType hstart
    | cases hstart

theorem TypeFrame.closes {frame : TypeFrame} (kind : LexemeKind) (hlevel : frame.level ≤ 1) :
    (frame.move kind).Closes := by
  cases frame
  case due top | recordOpen top | fields top | fieldEnd top | constraint top | constraintName top
      | constraintEnd top | moreConstraints top =>
    cases top
    case true => exact absurd hlevel (by decide)
    all_goals
      simp only [TypeFrame.move, startField]
      repeat' split
    all_goals first
      | trivial
      | refine Move.closes_ofStart ?_ fun frames hframes => closed_startType hframes
      | skip
    all_goals
      repeat' apply Closed.cons
    all_goals first
      | rfl
      | exact .nil
  all_goals
    simp only [TypeFrame.move]
    repeat' split
  all_goals first
    | trivial
    | exact closed_startType (by assumption)
    | exact closed_startType (mem_of_if (by assumption))
    | refine Move.closes_ofStart ?_ fun frames hframes => closed_startType hframes
    | refine Move.closes_ofStart ?_ fun frames hframes => closed_startExpression hframes
    | refine Move.closes_ofStart ?_ fun frames hframes => closed_startParameter hframes
    | refine Closed.append (closed_startType (by assumption)) ?_
    | skip
  all_goals
    repeat' apply Closed.cons
  all_goals first
    | rfl
    | exact .nil
    | cases ‹Bool› <;> rfl

theorem Shape.closes (shape : Shape) (site : Site) (kind : LexemeKind) :
    (shape.move site kind).Closes := by
  simp only [Shape.move]
  repeat' split
  all_goals first
    | trivial
    | skip
  all_goals
    repeat' apply Closed.cons
  all_goals first
    | rfl
    | exact .nil

theorem closed_close {indexed : Indexed} {value types unions : Bool} {frames : List Frame}
    (hlevel : indexed.level ≤ 1) (hclose : frames ∈ indexed.close value types unions) :
    Closed frames := by
  cases indexed
  all_goals
    simp only [Indexed.close] at hclose
    split at hclose
    · cases hclose
      refine .cons ?_ .nil
      first | rfl | exact if_pos hlevel
    · cases hclose

theorem ExprFrame.closes {frame : ExprFrame} (kind : LexemeKind) (hlevel : frame.level ≤ 1) :
    (frame.move kind).Closes := by
  cases frame
  all_goals
    simp only [ExprFrame.move]
    repeat' split
  all_goals first
    | trivial
    | exact Shape.closes _ _ kind
    | refine Move.closes_ofStart ?_ fun frames hframes => closed_startOperand hframes
    | refine Move.closes_ofStart ?_ fun frames hframes => closed_startExpression hframes
    | refine Move.closes_ofStart ?_ fun frames hframes => closed_startType hframes
    | refine Move.closes_ofStart ?_ fun frames hframes => closed_close hlevel hframes
    | refine Closed.append (closed_startType (by assumption)) ?_
    | refine Closed.append .block ?_
    | skip
  all_goals
    repeat' apply Closed.cons
  all_goals first
    | rfl
    | exact .nil
    | exact if_pos hlevel

theorem Place.closes_assigned (place : Place) (kind : LexemeKind) : (place.assigned kind).Closes := by
  simp only [Place.assigned]
  repeat' split
  all_goals first
    | trivial
    | skip
  all_goals
    repeat' apply Closed.cons
  all_goals first
    | rfl
    | exact .nil

theorem StmtFrame.closes {frame : StmtFrame} (kind : LexemeKind)
    (hfree : (Frame.stmt frame).footing = .free) : (frame.move kind).Closes := by
  cases frame
  case statements | statementEnd | labelled => cases hfree
  case simpleEnd place word =>
    have hplace : place ≠ .statement := by
      rintro rfl
      cases hfree
    simp only [StmtFrame.move, hplace, decide_false, Bool.false_and]
    repeat' split
    all_goals first
      | trivial
      | exact Place.closes_assigned place kind
      | skip
    all_goals first
      | contradiction
      | repeat' apply Closed.cons
    all_goals first
      | rfl
      | exact .nil
  all_goals
    simp only [StmtFrame.move]
    repeat' split
  all_goals first
    | trivial
    | exact Place.closes_assigned _ kind
    | refine Move.closes_ofStart ?_ fun frames hframes => closed_startExpression hframes
    | refine Move.closes_ofStart ?_ fun frames hframes => closed_startSimple (by decide) hframes
    | refine Closed.append (closed_startExpression (by assumption)) ?_
    | skip
  all_goals
    repeat' first
      | exact .block
      | exact .clause _
      | exact .nil
      | apply Closed.append
      | apply Closed.cons
  all_goals rfl

theorem eq_false_of_levelOnTop {top : Bool} {level : Nat} (hlevel : levelOnTop top (level + 2) ≤ 1) :
    top = false := by
  cases top with
  | false => rfl
  | true =>
      change level + 2 ≤ 1 at hlevel
      omega

theorem DeclFrame.closes {frame : DeclFrame} (kind : LexemeKind) (hlevel : frame.level ≤ 1) :
    (frame.move kind).Closes := by
  cases frame
  case items | itemEnd | packageName | imports | importPath | importGroup | importEnd | function
      | functionName | receiver | methodName =>
    exact absurd hlevel (by decide)
  case constantValue | variableValue | body =>
    simp only [DeclFrame.move]
    split
    · first
        | exact .block
        | exact .cons rfl (.cons rfl (.cons rfl .nil))
    · trivial
  all_goals
    obtain rfl := eq_false_of_levelOnTop hlevel
    simp only [DeclFrame.move]
    repeat' split
  all_goals first
    | trivial
    | exact ExprFrame.closes kind (Nat.zero_le 1)
    | refine Move.closes_ofStart ?_ fun frames hframes => closed_startType hframes
    | refine Move.closes_ofStart ?_ fun frames hframes => closed_startExpression hframes
    | refine Closed.append (closed_startType (by assumption)) ?_
    | refine Closed.append (closed_startConstraint (by assumption)) ?_
    | refine Closed.append (closed_startConstraint (mem_of_if (by assumption))) ?_
    | skip
  all_goals
    repeat' first
      | exact .nil
      | apply Closed.append
      | apply Closed.cons
  all_goals first
    | rfl
    | exact (Shape.closes _ _ kind).of_take (by assumption)

theorem Frame.level_of_footing {frame : Frame} (hfree : frame.footing = .free) : frame.level ≤ 1 := by
  unfold Frame.footing at hfree
  split at hfree
  case h_10 =>
    split at hfree
    · assumption
    · cases hfree
  all_goals cases hfree

theorem Frame.closes {frame : Frame} (kind : LexemeKind) (hfree : frame.footing = .free) :
    (frame.move kind).Closes := by
  have hlevel := frame.level_of_footing hfree
  cases frame with
  | type frame => exact TypeFrame.closes kind hlevel
  | expr frame => exact ExprFrame.closes kind hlevel
  | stmt frame => exact StmtFrame.closes kind hfree
  | decl frame => exact DeclFrame.closes kind hlevel
  | expect due =>
      simp only [Frame.move]
      split
      · exact .nil
      · trivial
  | word =>
      simp only [Frame.move]
      split
      · exact .nil
      · trivial
  | finished => trivial

theorem Closed.standing {frames below : List Frame} (hclosed : Closed frames) (hbelow : Carries below) :
    Standing (frames ++ below) :=
  (hclosed below hbelow).1

theorem standing_startStatement {kind : LexemeKind} {frames below : List Frame}
    (hstart : frames ∈ startStatement kind) (hbelow : Standing (.stmt .statementEnd :: below)) :
    Standing (frames ++ .stmt .statementEnd :: below) := by
  have hcarries : Carries (.stmt .statementEnd :: below) := ⟨hbelow, nofun⟩
  unfold startStatement at hstart
  split at hstart
  case h_17 =>
    obtain ⟨expression, hexpression, rfl⟩ := Option.map_eq_some_iff.mp hstart
    rw [List.append_assoc]
    exact (closed_startExpression hexpression).standing ⟨⟨⟨below, rfl⟩, hbelow⟩, nofun⟩
  all_goals
    cases hstart
    refine Closed.standing ?_ hcarries
    repeat' first
      | exact .block
      | exact .nil
      | apply Closed.cons
  all_goals rfl

/-- What a move leaves can stand on the frames below. -/
def Move.Stands (below : List Frame) : Move → Prop
  | .take _ next => Standing (next ++ below)
  | .leave _ | .refuse => True

theorem Move.stands_ofStart {role : Role} {rest below : List Frame} {start : Option (List Frame)}
    (hstart : ∀ frames ∈ start, Standing (frames ++ (rest ++ below))) :
    (Move.ofStart role rest start).Stands below := by
  cases start with
  | none => trivial
  | some frames =>
      change Standing (frames ++ rest ++ below)
      rw [List.append_assoc]
      exact hstart frames rfl

theorem Move.stands_take {role : Role} {next : List Frame} (hnext : Standing next) :
    (Move.take role next).Stands [] := by
  change Standing (next ++ [])
  rwa [List.append_nil]

theorem Move.Closes.stands {move : Move} {below : List Frame} (hcloses : move.Closes)
    (hbelow : Carries below) : move.Stands below := by
  cases move with
  | take role next => exact Closed.standing hcloses hbelow
  | leave | refuse => trivial

theorem StmtFrame.stands {frame : StmtFrame} (kind : LexemeKind) {below : List Frame}
    (hneedy : (Frame.stmt frame).footing ≠ .free) (hstanding : Standing (.stmt frame :: below)) :
    (frame.move kind).Stands below := by
  obtain ⟨hfooting, hbelow⟩ := hstanding
  cases frame
  case statements =>
    simp only [StmtFrame.move]
    split
    · rename_i frames hframes
      change Standing (frames ++ [.stmt .statementEnd] ++ below)
      rw [List.append_assoc]
      exact standing_startStatement hframes ⟨hfooting, hbelow⟩
    · trivial
  case statementEnd =>
    simp only [StmtFrame.move]
    split
    · exact ⟨hfooting, hbelow⟩
    · trivial
  case labelled =>
    obtain ⟨rest, rfl⟩ := hfooting
    simp only [StmtFrame.move]
    split
    case h_4 => exact Move.stands_ofStart fun frames hframes => standing_startStatement hframes hbelow
    all_goals trivial
  case simple => trivial
  case simpleEnd place word =>
    have hplace : place = .statement := by
      cases place
      case statement => rfl
      all_goals exact absurd rfl hneedy
    subst hplace
    obtain ⟨rest, rfl⟩ := hfooting
    have hcarries : Carries (.stmt .statementEnd :: rest) := ⟨hbelow, by rintro ⟨⟩⟩
    simp only [StmtFrame.move]
    repeat' split
    all_goals first
      | trivial
      | exact (Place.closes_assigned .statement kind).stands hcarries
      | exact ⟨⟨rest, rfl⟩, hbelow⟩
      | refine Closed.standing ?_ hcarries
    all_goals
      repeat' apply Closed.cons
    all_goals first
      | rfl
      | exact .nil
  all_goals exact absurd rfl hneedy

theorem carries_ground {frame : Frame} (hground : frame.footing = .ground)
    (hfields : frame ≠ .type (.fields true)) : Carries [frame] := by
  refine ⟨⟨?_, trivial⟩, ?_⟩
  · rw [hground]
    rfl
  · intro hhead
    exact hfields (Option.some.inj hhead)

theorem carries_constraint {frame : Frame} (hconstraint : frame.footing = .constraint) :
    Carries [frame, .decl (.typeBody true)] := by
  have hbody : Carries [.decl (.typeBody true)] := carries_ground rfl nofun
  refine ⟨⟨?_, hbody.1⟩, ?_⟩
  · rw [hconstraint]
    rfl
  · intro hhead
    obtain rfl := Option.some.inj hhead
    cases hconstraint

theorem standing_startType {kind : LexemeKind} {frames : List Frame}
    (hstart : frames ∈ startType true kind) : Standing frames := by
  by_cases hstruct : kind = .keyword .structWord
  · subst hstruct
    cases hstart
    exact ⟨rfl, trivial⟩
  · have hsame : startType true kind = startType false kind := by
      unfold startType
      split <;> first | rfl | exact absurd rfl hstruct
    rw [hsame] at hstart
    have hstanding := (closed_startType hstart).standing (⟨trivial, nofun⟩ : Carries [])
    rwa [List.append_nil] at hstanding

theorem TypeFrame.stands {frame : TypeFrame} (kind : LexemeKind) {below : List Frame}
    (hneedy : (Frame.type frame).footing ≠ .free) (hstanding : Standing (.type frame :: below)) :
    (frame.move kind).Stands below := by
  obtain ⟨hfooting, hbelow⟩ := hstanding
  cases frame
  case due top | recordOpen top | fields top | fieldEnd top =>
    cases top
    case false => exact absurd rfl hneedy
    obtain rfl : below = [] := hfooting
    simp only [TypeFrame.move, startField]
    repeat' split
    all_goals first
      | trivial
      | exact Move.stands_ofStart fun frames hframes => by simpa using standing_startType hframes
      | exact ⟨rfl, trivial⟩
      | exact ⟨by rintro ⟨⟩, rfl, trivial⟩
      | exact ⟨by rintro ⟨⟩, by rintro ⟨⟩, rfl, trivial⟩
  case constraint top | constraintName top | constraintEnd top | moreConstraints top =>
    cases top
    case false => exact absurd rfl hneedy
    obtain rfl : below = [.decl (.typeBody true)] := hfooting
    simp only [TypeFrame.move]
    repeat' split
    all_goals first
      | trivial
      | exact hbelow
      | exact (carries_constraint rfl).1
      | refine Move.stands_ofStart fun frames hframes => (closed_startType hframes).standing ?_
        exact Closed.cons rfl .nil _ (carries_constraint rfl)
  case nameEnd top value type => cases top <;> exact absurd rfl hneedy
  all_goals first
    | exact absurd rfl hneedy
    | cases ‹Bool› <;> exact absurd rfl hneedy

theorem standing_close {value types unions : Bool} {frames : List Frame}
    (hclose : frames ∈ (Indexed.parameter true).close value types unions) : Standing frames := by
  simp only [Indexed.close] at hclose
  split at hclose
  · cases hclose
    exact ⟨rfl, trivial⟩
  · cases hclose

theorem ExprFrame.stands {frame : ExprFrame} (kind : LexemeKind) {below : List Frame}
    (hneedy : (Frame.expr frame).footing ≠ .free) (hstanding : Standing (.expr frame :: below)) :
    (frame.move kind).Stands below := by
  obtain ⟨hfooting, hbelow⟩ := hstanding
  cases frame
  case index indexed | indexItem indexed _ _ | indexEnd indexed _ _ _ | moreIndices indexed _ =>
    cases indexed
    case phrase => exact absurd rfl hneedy
    case name top => cases top <;> exact absurd rfl hneedy
    case parameter top =>
      cases top
      case false => exact absurd rfl hneedy
      obtain rfl : below = [] := hfooting
      simp only [ExprFrame.move]
      repeat' split
      all_goals first
        | trivial
        | exact Move.stands_ofStart fun frames hframes => by simpa using standing_close hframes
        | exact ⟨by rintro ⟨⟩, trivial⟩
        | exact ⟨rfl, trivial⟩
        | exact Move.stands_ofStart fun frames hframes =>
            (closed_startExpression hframes).standing (carries_ground rfl (by rintro ⟨⟩))
  all_goals exact absurd rfl hneedy

theorem carries_nil : Carries [] :=
  ⟨trivial, nofun⟩

theorem carries_constraints : Carries (constraints true) :=
  Closed.cons rfl .nil _ (carries_constraint rfl)

theorem closed_arrayLength : Closed arrayLength :=
  .cons rfl (.cons rfl (.cons rfl .nil))

theorem carries_length : Carries [.decl (.lengthOrConstraint true)] :=
  carries_ground rfl nofun

theorem carries_groupItem : Carries [.decl (.typeParameterGroupItem true)] :=
  carries_ground rfl nofun

theorem closed_expressionDue (site : Site) : Closed (expressionDue site) :=
  .cons rfl (.cons rfl .nil)

theorem DeclFrame.stands {frame : DeclFrame} (kind : LexemeKind) {below : List Frame}
    (hlevel : frame.level ≤ 3) (hneedy : (Frame.decl frame).footing ≠ .free)
    (hstanding : Standing (.decl frame :: below)) : (frame.move kind).Stands below := by
  obtain ⟨hfooting, hbelow⟩ := hstanding
  cases frame
  case items | itemEnd | packageName | imports | importPath | importGroup | importEnd | function
      | functionName | receiver | methodName =>
    exact absurd hlevel (by decide)
  case constantValue | variableValue | body => exact absurd rfl hneedy
  case typeName top | typeBracket top | typeParameter top | typeParameterIndex top
      | typeParameterIndexEnd top _ _ | typeParameterGroup top | typeParameterGroupItem top
      | typeParameterGroupEnd top _ _ | lengthOrConstraint top | lengthOrConstraintEnd top _ _
      | typeBody top | typeBodyOrAlias top =>
    cases top
    case false => exact absurd rfl hneedy
    obtain rfl : below = [] := hfooting
    simp only [DeclFrame.move]
    repeat' split
    all_goals first
      | trivial
      | exact ⟨rfl, trivial⟩
      | exact (carries_constraint rfl).1
      | exact ExprFrame.stands kind (by rintro ⟨⟩) ⟨rfl, trivial⟩
      | exact Move.stands_ofStart fun frames hframes => by simpa using standing_startType hframes
      | exact Move.stands_ofStart fun frames hframes => (closed_startType hframes).standing carries_nil
      | exact Move.stands_ofStart fun frames hframes =>
          (closed_startExpression hframes).standing (closed_arrayLength _ carries_nil)
      | exact Move.stands_ofStart fun frames hframes =>
          (closed_startExpression hframes).standing carries_groupItem
      | apply Move.stands_take
    all_goals first
      | exact (closed_startConstraint (by assumption)).standing carries_constraints
      | exact (closed_startConstraint (mem_of_if (by assumption))).standing carries_constraints
      | exact (closed_expressionDue .free).standing carries_length
      | exact ((Shape.closes _ _ kind).of_take (by assumption)).standing
          (Closed.cons rfl .nil _ carries_length)
      | exact @Closed.standing [_, _] _ (.cons rfl (.cons rfl .nil)) carries_length
      | exact @Closed.standing [_] _ (.cons rfl .nil) carries_constraints
      | rw [← List.append_nil (_ ++ arrayLength)]
        exact ((closed_expressionDue .free).append closed_arrayLength).standing carries_nil
      | rw [← List.append_nil (_ :: _)]
        refine Closed.standing ?_ carries_nil
        repeat' first
          | exact closed_arrayLength
          | exact .nil
          | apply Closed.cons
        all_goals rfl
  -- The frames of groups and of lists of names are free within a function and too high at the top of a file.
  all_goals
    rename_i top
    cases top
    · exact absurd rfl hneedy
    · exact absurd hlevel (by decide)

theorem Frame.stands {frame : Frame} (kind : LexemeKind) {below : List Frame} (hlevel : frame.level ≤ 3)
    (hstanding : Standing (frame :: below)) : (frame.move kind).Stands below := by
  by_cases hfree : frame.footing = .free
  · obtain ⟨hfooting, hbelow⟩ := hstanding
    rw [hfree] at hfooting
    exact (frame.closes kind hfree).stands ⟨hbelow, hfooting⟩
  · cases frame with
    | type frame => exact TypeFrame.stands kind hfree hstanding
    | expr frame => exact ExprFrame.stands kind hfree hstanding
    | stmt frame => exact StmtFrame.stands kind hfree hstanding
    | decl frame => exact DeclFrame.stands kind hlevel hfree hstanding
    | expect due =>
        have hlow : (Frame.expect due).level ≤ 1 := by
          simp only [Frame.level] at hlevel ⊢
          split at hlevel
          · omega
          · rw [if_neg ‹_›]
            exact Nat.zero_le 1
        exact absurd (if_pos hlow) hfree
    | word | finished => exact absurd rfl hfree

/-- A frame that is taken up again needs what it needed before, or nothing. -/
theorem Frame.footing_resume {frame resumed : Frame} {reading : Reading}
    (hresume : frame.resume reading = some resumed) :
    resumed.footing = frame.footing ∨ (resumed.footing = .free ∧ frame.footing = .statement) := by
  cases frame with
  | type | expect | word | finished =>
      obtain rfl := Option.some.inj hresume
      exact .inl rfl
  | expr frame =>
      simp only [Frame.resume, ExprFrame.resume] at hresume
      split at hresume
      all_goals
        try split at hresume
        all_goals first
          | cases hresume; exact .inl rfl
          | cases hresume
  | stmt frame =>
      simp only [Frame.resume, StmtFrame.resume] at hresume
      split at hresume
      case h_1 place _ =>
        split at hresume
        · cases hresume
          cases place <;> exact .inl rfl
        · cases hresume
      case h_2 =>
        obtain rfl := Option.some.inj hresume
        cases ‹Place›
        case statement => exact .inr ⟨rfl, rfl⟩
        all_goals exact .inl rfl
      all_goals
        try split at hresume
        all_goals first
          | cases hresume; exact .inl rfl
          | cases hresume
  | decl frame =>
      simp only [Frame.resume, DeclFrame.resume] at hresume
      split at hresume
      all_goals
        try split at hresume
        all_goals first
          | cases hresume; exact .inl rfl
          | cases hresume

theorem Standing.resume {frame resumed : Frame} {reading : Reading} {below : List Frame}
    (hstanding : Standing (frame :: below)) (hresume : frame.resume reading = some resumed) :
    Standing (resumed :: below) := by
  obtain ⟨hfooting, hbelow⟩ := hstanding
  refine ⟨?_, hbelow⟩
  obtain hsame | ⟨hfree, hstatement⟩ := frame.footing_resume hresume
  · rw [hsame]
    exact hfooting
  · rw [hstatement] at hfooting
    obtain ⟨rest, rfl⟩ := hfooting
    rw [hfree]
    nofun

variable {kind : LexemeKind} {role : Role} {stack next : List Frame}

theorem Settles.standing {frame : Frame} {bottom : List Frame} (hsettles : Settles kind stack frame bottom)
    (hstanding : Standing stack) : Standing (frame :: bottom) := by
  induction hsettles with
  | here => exact hstanding
  | down hleave hresume hrest ih => exact ih (hstanding.2.resume hresume)

theorem Standing.read (hstanding : Standing stack) (hbelow : Below 3 stack)
    (hread : read stack kind = some (role, next)) : Standing next := by
  obtain ⟨frame, bottom, pushed, hsettles, hmove, rfl⟩ := read_eq_some_iff.mp hread
  have hstands := Frame.stands kind (hsettles.level_le hbelow).1 (hsettles.standing hstanding)
  rw [hmove] at hstands
  exact hstands

theorem Standing.advance (hstanding : Standing stack) (hbelow : Below 3 stack)
    (hadvance : advance stack kind = some (role, next)) : Standing next := by
  obtain ⟨-, rfl, -⟩ | hread | ⟨mark, left, right, first, middle, -, -, hleft, hright⟩ :=
    advance_cases hadvance
  · exact hstanding
  · exact hstanding.read hbelow hread
  · exact (hstanding.read hbelow hleft).read (read_below hleft hbelow).2 hright

theorem Reads.standing {marked : List Marked} (hreads : Reads stack marked next) (hbelow : Below 3 stack)
    (hstanding : Standing stack) : Standing next := by
  induction hreads with
  | refl => exact hstanding
  | step hadvance _ ih =>
      exact ih (advance_below hadvance hbelow).2 (hstanding.advance hbelow hadvance)

end GoGraft.Grammar
