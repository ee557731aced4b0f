import GoGraft.Grammar.Expressions
import GoGraft.Grammar.Types

/-! What the frames of declarations do with a lexeme, and with what was read above them. -/

namespace GoGraft.Grammar

/-- The frames under a function literal that begins a statement. -/
def literalStatement : List Frame :=
  [.expr (.first .free), .stmt (.simple .statement)]

/-- The rest of a function declaration, its parameters being open. -/
def signature : List Frame :=
  [.type .parameters, .type .result, .decl .body]

/-- The parameters of a type specification from the first constraint on. -/
def constraints (top : Bool) : List Frame :=
  [.type .union, .type (.constraintEnd top), .decl (.typeBody top)]

/-- The rest of an array type that is the whole type, after its length. -/
def arrayLength : List Frame :=
  [.expr .value, expectMark .closeBracket, .type (.due false)]

/-- A constraint that cannot be the rest of a length. -/
def startConstraint (kind : LexemeKind) : Option (List Frame) :=
  match kind with
  | .word | .maker | .keyword _ | .mark .tilde | .mark .arrow => startType false kind
  | _ => none

def startImport (kind : LexemeKind) : Move :=
  match kind with
  | .string => .take .path []
  | .mark .dot | .word | .maker => .take .aliasing [.decl .importPath]
  | _ => .refuse

def startItem (kind : LexemeKind) : Option (List Frame) :=
  match kind with
  | .keyword .packageWord => some [.decl .packageName]
  | .keyword .importWord => some [.decl .imports]
  | .keyword .funcWord => some [.decl .function]
  | .keyword .constWord => some [.decl (.constants true)]
  | .keyword .typeWord => some [.decl (.types true)]
  | .keyword .varWord => some [.decl (.variables true)]
  | _ => startStatement kind

def DeclFrame.move (frame : DeclFrame) (kind : LexemeKind) : Move :=
  match frame with
  | .items => .ofStart .inner [.decl .itemEnd] (startItem kind)
  | .itemEnd => if isTerminator kind then .take .ending [.decl .items] else .refuse
  | .packageName => if isWord kind then .take .name [] else .refuse
  | .imports =>
      match kind with
      | .mark .openParen => .take .groupOpen [.decl .importGroup]
      | _ => startImport kind
  | .importPath =>
      match kind with
      | .string => .take .path []
      | _ => .refuse
  | .importGroup =>
      match kind with
      | .mark .closeParen => .take .groupClose []
      | _ =>
          match startImport kind with
          | .take role next => .take role (next ++ [.decl .importEnd])
          | move => move
  | .importEnd =>
      if isTerminator kind then .take .groupSplit [.decl .importGroup]
      else if kind = .mark .closeParen then .take .groupClose []
      else .refuse
  | .constants top =>
      if kind = .mark .openParen then .take .inner [.decl (.constantGroup top)]
      else if isWord kind then .take (Role.name.onTop top) [.decl (.constantNames top)]
      else .refuse
  | .constantGroup top =>
      if kind = .mark .closeParen then .take .inner []
      else if isWord kind then
        .take (Role.name.onTop top) [.decl (.constantNames top), .decl (.constantEnd top)]
      else .refuse
  | .constantEnd top =>
      if isTerminator kind then .take .inner [.decl (.constantGroup top)] else .refuse
  | .constantNames top =>
      match kind with
      | .mark .comma => .take (Role.name.onTop top) [.decl (.nextConstant top)]
      | .mark .assign => .take .inner (valuesDue .free)
      | _ =>
          match startType false kind with
          | some frames => .take .inner (frames ++ [.decl .constantValue])
          | none => .leave .action
  | .nextConstant top =>
      if isWord kind then .take (Role.name.onTop top) [.decl (.constantNames top)] else .refuse
  | .constantValue =>
      match kind with
      | .mark .assign => .take .inner (valuesDue .free)
      | _ => .refuse
  | .variables top =>
      if kind = .mark .openParen then .take .inner [.decl (.variableGroup top)]
      else if isWord kind then .take (Role.name.onTop top) [.decl (.variableNames top)]
      else .refuse
  | .variableGroup top =>
      if kind = .mark .closeParen then .take .inner []
      else if isWord kind then
        .take (Role.name.onTop top) [.decl (.variableNames top), .decl (.variableEnd top)]
      else .refuse
  | .variableEnd top =>
      if isTerminator kind then .take .inner [.decl (.variableGroup top)] else .refuse
  | .variableNames top =>
      match kind with
      | .mark .comma => .take .inner [.decl (.nextVariable top)]
      | .mark .assign => .take .inner (valuesDue .free)
      | _ => .ofStart .inner [.decl .variableValue] (startType false kind)
  | .nextVariable top =>
      if isWord kind then .take (Role.name.onTop top) [.decl (.variableNames top)] else .refuse
  | .variableValue =>
      match kind with
      | .mark .assign => .take .inner (valuesDue .free)
      | _ => .leave .action
  | .types top =>
      if kind = .mark .openParen then
        .take (Role.groupOpen.onTop top) [.decl (.typeGroup top)]
      else if isWord kind then .take (Role.name.onTop top) [.decl (.typeName top)]
      else .refuse
  | .typeGroup top =>
      if kind = .mark .closeParen then .take (Role.groupClose.onTop top) []
      else if isWord kind then
        .take (Role.name.onTop top) [.decl (.typeName top), .decl (.typeEnd top)]
      else .refuse
  | .typeEnd top =>
      if isTerminator kind then .take (Role.groupSplit.onTop top) [.decl (.typeGroup top)]
      else if kind = .mark .closeParen then .take (Role.groupClose.onTop top) []
      else .refuse
  | .typeName top =>
      match kind with
      | .mark .assign => .take (Role.aliasing.onTop top) [.type (.due top)]
      | .mark .openBracket => .take .inner [.decl (.typeBracket top)]
      | _ => .ofStart .inner [] (startType top kind)
  | .typeBracket top =>
      if kind = .mark .closeBracket then .take .inner [.type (.due false)]
      else if isWord kind then .take .inner [.decl (.typeParameter top)]
      else .ofStart .inner arrayLength (startExpression .free kind)
  | .typeParameter top =>
      match startConstraint kind with
      | some frames => .take .inner (frames ++ constraints top)
      | none =>
          match kind with
          | .mark .closeBracket => .take .inner [.type (.due false)]
          | .mark .comma => .take .inner [.type (.constraint top), .decl (.typeBody top)]
          | .mark .star =>
              .take .inner (expressionDue .free ++ [.decl (.lengthOrConstraint top)])
          | .mark .openParen => .take .inner [.decl (.typeParameterGroup top)]
          | .mark .openBracket => .take .inner [.decl (.typeParameterIndex top)]
          | .mark .dot =>
              .take .inner
                (.expr (.selector .name .free) :: .expr (.first .free) :: arrayLength)
          | _ =>
              if isBinary kind then .take .inner (expressionDue .free ++ arrayLength) else .refuse
  | .typeParameterIndex top =>
      match kind with
      | .mark .closeBracket => .take .inner (.type (.due false) :: constraints top)
      | _ => ExprFrame.move (.index (.parameter top)) kind
  | .typeParameterIndexEnd top shape value =>
      match (if value then startConstraint kind else none) with
      | some frames => .take .inner (frames ++ constraints top)
      | none =>
          match shape.move .free kind with
          | .take role next =>
              .take role (next ++ [.expr (.first .free), .decl (.lengthOrConstraint top)])
          | .leave _ =>
              match kind with
              | .mark .closeBracket => .take .inner [.type (.due false)]
              | _ =>
                  if isBinary kind then .take .inner (expressionDue .free ++ arrayLength)
                  else .refuse
          | .refuse => .refuse
  | .typeParameterGroup top =>
      match kind with
      | .mark .closeParen =>
          .take .inner (.expr (.postfixes .value .free) :: .expr (.first .free) :: arrayLength)
      | _ =>
          .ofStart .inner [.decl (.typeParameterGroupItem top)] (startExpression .free kind)
  | .typeParameterGroupEnd top value type =>
      let called : List Frame := .expr (.postfixes .value .free) :: .expr (.first .free) :: arrayLength
      match kind with
      | .mark .closeParen =>
          .take .inner
            [.expr (.postfixes (.grouped value type) .free), .expr (.first .free),
              .decl (.lengthOrConstraint top)]
      | .mark .comma => if value then .take .inner (.expr .arguments :: called) else .refuse
      | .mark .ellipsis => if value then .take .inner (.expr .spread :: called) else .refuse
      | _ => .refuse
  | .lengthOrConstraintEnd top value union =>
      match kind with
      | .mark .closeBracket =>
          if value && union then .take .inner [.decl (.typeBodyOrAlias top)]
          else if value then .take .inner [.type (.due false)]
          else .take (Role.parameters.onTop top) [.decl (.typeBody top)]
      | .mark .comma =>
          if union then
            .take .inner [.type (.moreConstraints top), .decl (.typeBody top)]
          else
            .refuse
      | _ => .refuse
  | .typeBody top =>
      match kind with
      | .mark .assign => .take (Role.aliasing.onTop top) [.type (.due top)]
      | _ => .ofStart .inner [] (startType top kind)
  | .typeBodyOrAlias top =>
      match kind with
      | .mark .assign => .take (Role.aliasing.onTop top) [.type (.due top)]
      | _ => .ofStart .inner [] (startType false kind)
  | .function =>
      if isWord kind then .take .name [.decl .functionName]
      else if kind = .mark .openParen then .take .inner [.type .parameters, .decl .receiver]
      else .refuse
  | .functionName =>
      match kind with
      | .mark .openBracket =>
          .take .named (.type (.constraint false) :: expectMark .openParen :: signature)
      | .mark .openParen => .take .named signature
      | _ => .refuse
  | .receiver =>
      if isWord kind then .take .name [.decl .methodName]
      else
        match kind with
        | .mark .openParen =>
            .take .inner (.type .parameters :: .expr (.functionBody .free) :: literalStatement)
        | .mark .openBrace =>
            .take .inner (block ++ .expr (.postfixes .value .free) :: literalStatement)
        | _ =>
            .ofStart .inner (.expr (.functionBody .free) :: literalStatement)
              (startType false kind)
  | .methodName =>
      match kind with
      | .mark .openParen => .take .named signature
      | .mark .openBrace =>
          .take .inner (block ++ .expr (.postfixes .value .free) :: literalStatement)
      | .mark .dot =>
          .take .inner (.type .selector :: .expr (.functionBody .free) :: literalStatement)
      | .mark .openBracket =>
          .take .inner (typeArguments ++ .expr (.functionBody .free) :: literalStatement)
      | _ => .refuse
  | .body =>
      match kind with
      | .mark .openBrace => .take .inner block
      | _ => .leave .action
  | .typeParameterGroupItem _ | .lengthOrConstraint _ => .refuse

/-- The frame that takes the place of one whose upper part has been read. -/
def DeclFrame.resume (frame : DeclFrame) (reading : Reading) : Option Frame :=
  match frame, reading with
  | .typeParameterGroupItem top, .phrase phrase =>
      if phrase.value || phrase.type then
        some (.decl (.typeParameterGroupEnd top phrase.value phrase.type))
      else
        none
  | .typeParameterGroupItem _, _ => none
  | .lengthOrConstraint top, .phrase phrase =>
      if phrase.value || phrase.union then
        some (.decl (.lengthOrConstraintEnd top phrase.value phrase.union))
      else
        none
  | .lengthOrConstraint _, _ => none
  | frame, _ => some (.decl frame)

end GoGraft.Grammar
