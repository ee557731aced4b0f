import GoGraft.Grammar.Machine

/-!
# Levels of frames

Only some frames give the roles that the outline is made of. Frames and roles have a level, and a frame gives roles
of at most its own level and puts frames of at most its own level in its place. What is read above a frame can
therefore be ignored wherever only roles of a higher level count:

* 0 for what the outline does not name,
* 1 for the parts of a field,
* 2 for the fields of the struct type of a top-level type,
* 3 for the head of a type specification,
* 4 for the names and groups of an item,
* 5 for items.
-/

namespace GoGraft.Grammar

def Role.level : Role → Nat
  | .inner => 0
  | .field | .fieldNamed | .tag => 1
  | .recordOpen | .recordSplit | .recordClose => 2
  | .aliasing | .parameters => 3
  | .name | .named | .path | .groupOpen | .groupSplit | .groupClose => 4
  | .ending => 5
  | .trivia => 6

/-- The level of a frame that counts only in a top-level item. -/
def levelOnTop (top : Bool) (level : Nat) : Nat :=
  if top then level else 0

def TypeFrame.level : TypeFrame → Nat
  | .fieldName top | .nextName top | .fieldNames top | .tag top | .nameBracket top
  | .nameEnd top _ _ => levelOnTop top 1
  | .due top | .recordOpen top | .fields top | .fieldEnd top => levelOnTop top 2
  | .constraint top | .constraintName top | .constraintEnd top | .moreConstraints top =>
      levelOnTop top 3
  | _ => 0

def Indexed.level : Indexed → Nat
  | .phrase _ _ => 0
  | .name top => levelOnTop top 1
  | .parameter top => levelOnTop top 3

def ExprFrame.level : ExprFrame → Nat
  | .index indexed | .indexItem indexed _ _ | .indexEnd indexed _ _ _ | .moreIndices indexed _ =>
      indexed.level
  | _ => 0

def DeclFrame.level : DeclFrame → Nat
  | .constantValue | .variableValue | .body => 0
  | .typeName top | .typeBracket top | .typeParameter top | .typeParameterIndex top
  | .typeParameterIndexEnd top _ _ | .typeParameterGroup top | .typeParameterGroupItem top
  | .typeParameterGroupEnd top _ _ | .lengthOrConstraint top | .lengthOrConstraintEnd top _ _
  | .typeBody top | .typeBodyOrAlias top => levelOnTop top 3
  | .constants top | .constantGroup top | .constantEnd top | .constantNames top
  | .nextConstant top | .variables top | .variableGroup top | .variableEnd top
  | .variableNames top | .nextVariable top | .types top | .typeGroup top | .typeEnd top =>
      levelOnTop top 4
  | .packageName | .imports | .importPath | .importGroup | .importEnd | .function
  | .functionName | .receiver | .methodName => 4
  | .items | .itemEnd => 5

/-- A stray lexeme or a newline is never due: the frame that would wait for it is above all levels. -/
def Frame.level : Frame → Nat
  | .type frame => frame.level
  | .expr frame => frame.level
  | .stmt _ | .word | .finished _ => 0
  | .decl frame => frame.level
  | .expect kind => if kind = .stray || kind = .newline then 6 else 0

/-- Frames of at most a level. -/
def Below (level : Nat) (frames : List Frame) : Prop :=
  ∀ frame ∈ frames, frame.level ≤ level

namespace Below

variable {level : Nat} {left right : List Frame}

@[simp]
theorem nil : Below level [] := by simp [Below]

@[simp]
theorem cons_iff {frame : Frame} {frames : List Frame} :
    Below level (frame :: frames) ↔ frame.level ≤ level ∧ Below level frames := by
  simp [Below]

@[simp]
theorem append_iff : Below level (left ++ right) ↔ Below level left ∧ Below level right := by
  simp [Below, or_imp, forall_and]

theorem mono {more : Nat} (hbelow : Below level left) (hle : level ≤ more) : Below more left :=
  fun frame hframe => Nat.le_trans (hbelow frame hframe) hle

end Below

/-- A move that stays within a level. -/
def Move.Within (level : Nat) : Move → Prop
  | .take role next => role.level ≤ level ∧ Below level next
  | .leave _ | .refuse => True

theorem Move.Within.of_zero {level : Nat} {move : Move} (hwithin : move.Within 0) :
    move.Within level := by
  cases move with
  | take role next => exact ⟨Nat.le_trans hwithin.1 (Nat.zero_le level), hwithin.2.mono (Nat.zero_le level)⟩
  | leave | refuse => trivial

theorem Move.within_ofStart {level : Nat} {role : Role} {rest : List Frame} {start : Option (List Frame)}
    (hrole : role.level ≤ level) (hrest : Below level rest)
    (hstart : ∀ frames ∈ start, Below level frames) :
    (Move.ofStart role rest start).Within level := by
  cases start with
  | none => trivial
  | some frames => exact ⟨hrole, Below.append_iff.mpr ⟨hstart frames rfl, hrest⟩⟩

theorem below_startType {top : Bool} {kind : LexemeKind} {frames : List Frame}
    (hstart : frames ∈ startType top kind) : Below (levelOnTop top 2) frames := by
  unfold startType at hstart
  split at hstart <;> cases hstart <;>
    simp [Frame.level, TypeFrame.level, expectMark, levelOnTop]

theorem below_startType_false {level : Nat} {kind : LexemeKind} {frames : List Frame}
    (hstart : frames ∈ startType false kind) : Below level frames :=
  (below_startType hstart).mono (Nat.zero_le level)

theorem below_startOperand {level : Nat} {site : Site} {kind : LexemeKind} {frames : List Frame}
    (hstart : frames ∈ startOperand site kind) : Below level frames := by
  unfold startOperand at hstart
  split at hstart <;> cases hstart <;>
    simp [Frame.level, TypeFrame.level, ExprFrame.level, expectMark, expressionDue, levelOnTop]

theorem below_startExpression {level : Nat} {site : Site} {kind : LexemeKind} {frames : List Frame}
    (hstart : frames ∈ startExpression site kind) : Below level frames := by
  obtain ⟨operand, hoperand, rfl⟩ := Option.map_eq_some_iff.mp hstart
  simp [below_startOperand hoperand, Frame.level, ExprFrame.level]

theorem below_startSimple {level : Nat} {place : Place} {kind : LexemeKind} {frames : List Frame}
    (hstart : frames ∈ startSimple place kind) : Below level frames := by
  obtain ⟨expression, hexpression, rfl⟩ := Option.map_eq_some_iff.mp hstart
  simp [below_startExpression hexpression, Frame.level]

theorem below_startStatement {level : Nat} {kind : LexemeKind} {frames : List Frame}
    (hstart : frames ∈ startStatement kind) : Below level frames := by
  unfold startStatement at hstart
  split at hstart
  all_goals first
    | exact below_startSimple hstart
    | cases hstart
      simp [Frame.level, DeclFrame.level, ExprFrame.level, expectMark, valueDue, expressionDue,
        block, levelOnTop]

theorem below_startParameter {level : Nat} {kind : LexemeKind} {frames : List Frame}
    (hstart : frames ∈ startParameter kind) : Below level frames := by
  unfold startParameter at hstart
  split at hstart
  · cases hstart
    simp [Frame.level, TypeFrame.level]
  · split at hstart
    · cases hstart
      simp [Frame.level, TypeFrame.level, levelOnTop]
    · obtain ⟨type, htype, rfl⟩ := Option.map_eq_some_iff.mp hstart
      simp [below_startType_false htype, Frame.level, TypeFrame.level]

@[simp]
theorem Role.level_onTop (role : Role) (top : Bool) :
    (role.onTop top).level = levelOnTop top role.level := by
  cases top <;> rfl

theorem levelOnTop_mono (top : Bool) {low high : Nat} (hle : low ≤ high) :
    levelOnTop top low ≤ levelOnTop top high := by
  cases top
  · exact Nat.le_refl 0
  · exact hle

@[simp]
theorem Move.within_take {level : Nat} {role : Role} {next : List Frame} :
    (Move.take role next).Within level ↔ role.level ≤ level ∧ Below level next :=
  Iff.rfl

theorem mem_of_if {value : Bool} {start : Option (List Frame)} {frames : List Frame}
    (hstart : (if value then start else none) = some frames) : frames ∈ start := by
  split at hstart
  · exact hstart
  · cases hstart

theorem Move.Within.of_take {level : Nat} {move : Move} {role : Role} {next : List Frame}
    (hwithin : move.Within level) (htake : move = .take role next) :
    role.level ≤ level ∧ Below level next := by
  rwa [htake] at hwithin

theorem TypeFrame.move_within (frame : TypeFrame) (kind : LexemeKind) :
    (frame.move kind).Within frame.level := by
  cases frame
  all_goals
    simp only [TypeFrame.move, startField]
    repeat' split
  all_goals first
    | trivial
    | refine Move.within_ofStart (Nat.zero_le _) ?_ fun frames hframes => below_startType hframes
    | refine Move.within_ofStart (Nat.zero_le _) ?_ fun frames hframes => below_startType_false hframes
    | refine Move.within_ofStart (Nat.zero_le _) ?_ fun frames hframes => below_startExpression hframes
    | refine Move.within_ofStart (Nat.zero_le _) ?_ fun frames hframes => below_startParameter hframes
    | skip
  all_goals
    simp only [Move.within_take, Below.cons_iff, Below.nil, Below.append_iff, Role.level_onTop,
      typeArguments, unionDue, and_true]
    repeat' apply And.intro
  all_goals first
    | exact Nat.zero_le _
    | exact Nat.le_refl _
    | exact levelOnTop_mono _ (by decide)
    | exact below_startType_false (by assumption)
    | exact below_startType_false (mem_of_if (by assumption))

theorem Shape.move_within (shape : Shape) (site : Site) (kind : LexemeKind) :
    (shape.move site kind).Within 0 := by
  simp only [Shape.move]
  repeat' split
  all_goals first
    | trivial
    | simp only [Move.within_take, Below.cons_iff, Below.nil, Below.append_iff, valueDue,
        expressionDue, and_true]
      repeat' apply And.intro
      all_goals exact Nat.zero_le _

theorem below_close {indexed : Indexed} {value types unions : Bool} {frames : List Frame}
    (hclose : frames ∈ indexed.close value types unions) : Below indexed.level frames := by
  cases indexed
  all_goals
    simp only [Indexed.close] at hclose
    split at hclose
    · cases hclose
      simp only [Below.cons_iff, Below.nil, and_true]
      exact Nat.le_refl _
    · cases hclose

theorem ExprFrame.move_within (frame : ExprFrame) (kind : LexemeKind) :
    (frame.move kind).Within frame.level := by
  cases frame
  all_goals
    simp only [ExprFrame.move]
    repeat' split
  all_goals first
    | trivial
    | exact (Shape.move_within _ _ kind).of_zero
    | refine Move.within_ofStart (Nat.zero_le _) ?_ fun frames hframes => below_startOperand hframes
    | refine Move.within_ofStart (Nat.zero_le _) ?_ fun frames hframes => below_startExpression hframes
    | refine Move.within_ofStart (Nat.zero_le _) ?_ fun frames hframes => below_startType_false hframes
    | refine Move.within_ofStart (Nat.zero_le _) ?_ fun frames hframes => below_close hframes
    | skip
  all_goals
    simp only [Move.within_take, Below.cons_iff, Below.nil, Below.append_iff, valuesDue, valueDue,
      expressionDue, block, and_true]
    repeat' apply And.intro
  all_goals first
    | exact Nat.zero_le _
    | exact Nat.le_refl _
    | exact below_startType_false (by assumption)

theorem Place.assigned_within (place : Place) (kind : LexemeKind) :
    (place.assigned kind).Within 0 := by
  simp only [Place.assigned]
  repeat' split
  all_goals first
    | trivial
    | simp only [Move.within_take, Below.cons_iff, Below.nil, Below.append_iff, valuesDue, valueDue,
        expressionDue, and_true]
      repeat' apply And.intro
      all_goals exact Nat.zero_le _

theorem StmtFrame.move_within (frame : StmtFrame) (kind : LexemeKind) :
    (frame.move kind).Within 0 := by
  cases frame
  all_goals
    simp only [StmtFrame.move]
    repeat' split
  all_goals first
    | trivial
    | exact Place.assigned_within _ kind
    | refine Move.within_ofStart (Nat.zero_le _) ?_ fun frames hframes => below_startStatement hframes
    | refine Move.within_ofStart (Nat.zero_le _) ?_ fun frames hframes => below_startExpression hframes
    | refine Move.within_ofStart (Nat.zero_le _) ?_ fun frames hframes => below_startSimple hframes
    | skip
  all_goals
    simp only [Move.within_take, Below.cons_iff, Below.nil, Below.append_iff, valuesDue, valueDue,
      expressionDue, blockDue, block, and_true]
    repeat' apply And.intro
  all_goals first
    | exact Nat.zero_le _
    | exact below_startStatement (by assumption)
    | exact below_startExpression (by assumption)

theorem below_startConstraint {level : Nat} {kind : LexemeKind} {frames : List Frame}
    (hstart : frames ∈ startConstraint kind) : Below level frames := by
  unfold startConstraint at hstart
  split at hstart
  all_goals first
    | exact below_startType_false hstart
    | cases hstart

theorem below_startItem {kind : LexemeKind} {frames : List Frame}
    (hstart : frames ∈ startItem kind) : Below 4 frames := by
  unfold startItem at hstart
  split at hstart
  all_goals first
    | exact below_startStatement hstart
    | cases hstart
      simp only [Below.cons_iff, Below.nil, and_true]
      exact Nat.le_refl _

theorem startImport_within (kind : LexemeKind) : (startImport kind).Within 4 := by
  unfold startImport
  split
  all_goals first
    | trivial
    | simp only [Move.within_take, Below.cons_iff, Below.nil, and_true]
      decide

theorem DeclFrame.move_within (frame : DeclFrame) (kind : LexemeKind) :
    (frame.move kind).Within frame.level := by
  cases frame
  all_goals
    simp only [DeclFrame.move]
    repeat' split
  all_goals first
    | trivial
    | exact startImport_within kind
    | exact ExprFrame.move_within _ kind
    | refine Move.within_ofStart (Nat.zero_le _) ?_ fun frames hframes => below_startType_false hframes
    | refine Move.within_ofStart (Nat.zero_le _) ?_ fun frames hframes => below_startExpression hframes
    | refine Move.within_ofStart (Nat.zero_le _) ?_ fun frames hframes =>
        (below_startType hframes).mono (levelOnTop_mono _ (by decide))
    | refine Move.within_ofStart (Nat.zero_le _) ?_ fun frames hframes =>
        (below_startItem hframes).mono (by decide)
    | skip
  all_goals
    simp only [Move.within_take, Below.cons_iff, Below.nil, Below.append_iff, Role.level_onTop,
      List.cons_append, arrayLength, constraints, signature, literalStatement, typeArguments, unionDue,
      valuesDue, expressionDue, block, and_true, true_and]
    repeat' apply And.intro
  all_goals first
    | exact Nat.zero_le _
    | exact Nat.le_refl _
    | exact levelOnTop_mono _ (by decide)
    | exact below_startType_false (by assumption)
    | exact below_startConstraint (by assumption)
    | exact below_startConstraint (mem_of_if (by assumption))
    | exact ((startImport_within kind).of_take (by assumption)).1
    | exact ((startImport_within kind).of_take (by assumption)).2
    | exact ((Shape.move_within _ _ kind).of_zero.of_take (by assumption)).1
    | exact ((Shape.move_within _ _ kind).of_zero.of_take (by assumption)).2

/-- A frame takes no lexeme in a role above its level, and leaves no frame above its level. -/
theorem Frame.move_within (frame : Frame) (kind : LexemeKind) :
    (frame.move kind).Within frame.level := by
  cases frame with
  | type frame => exact frame.move_within kind
  | expr frame => exact frame.move_within kind
  | stmt frame => exact frame.move_within kind
  | decl frame => exact frame.move_within kind
  | expect due =>
      simp only [Frame.move]
      split
      · exact ⟨Nat.zero_le _, .nil⟩
      · trivial
  | word =>
      simp only [Frame.move]
      split
      · exact ⟨Nat.zero_le _, .nil⟩
      · trivial
  | finished => trivial

/-- A frame that goes on after what stood above it keeps to its level. -/
theorem Frame.resume_level {frame next : Frame} {reading : Reading}
    (hresume : frame.resume reading = some next) : next.level ≤ frame.level := by
  cases frame with
  | type | expect | word | finished =>
      cases hresume
      exact Nat.le_refl _
  | expr frame =>
      simp only [Frame.resume, ExprFrame.resume] at hresume
      repeat' split at hresume
      all_goals cases hresume
      all_goals exact Nat.le_refl _
  | stmt frame =>
      simp only [Frame.resume, StmtFrame.resume] at hresume
      repeat' split at hresume
      all_goals cases hresume
      all_goals exact Nat.le_refl _
  | decl frame =>
      simp only [Frame.resume, DeclFrame.resume] at hresume
      repeat' split at hresume
      all_goals cases hresume
      all_goals exact Nat.le_refl _

end GoGraft.Grammar
