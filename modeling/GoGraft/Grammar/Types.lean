import GoGraft.Grammar.Start

/-! What the frames of types do with a lexeme. -/

namespace GoGraft.Grammar

def startParameter (kind : LexemeKind) : Option (List Frame) :=
  if isWord kind then
    some [.type .parameterName, .type .parameterEnd]
  else if kind = .mark .ellipsis then
    some [.type (.due false), .type .parameterEnd]
  else
    (startType false kind).map (· ++ [.type .parameterEnd])

def startField (top : Bool) (kind : LexemeKind) : Move :=
  if isWord kind then
    .take (Role.field.onTop top) [.type (.fieldName top), .type (.fieldEnd top)]
  else if kind = .mark .star then
    .take .inner [.type .pointed, .type (.tag top), .type (.fieldEnd top)]
  else
    .refuse

/-- Type arguments, their bracket being open. -/
def typeArguments : List Frame :=
  unionDue ++ [.type .arguments]

def TypeFrame.move (frame : TypeFrame) (kind : LexemeKind) : Move :=
  match frame with
  | .due top => .ofStart .inner [] (startType top kind)
  | .name =>
      match kind with
      | .mark .dot => .take .inner [.type .selector]
      | .mark .openBracket => .take .inner typeArguments
      | _ => .leave .action
  | .selector => if isWord kind then .take .inner [.type .qualified] else .refuse
  | .qualified =>
      match kind with
      | .mark .openBracket => .take .inner typeArguments
      | _ => .leave .action
  | .arguments =>
      match kind with
      | .mark .comma => .take .inner [.type .moreArguments]
      | .mark .closeBracket => .take .inner []
      | _ => .refuse
  | .moreArguments =>
      match kind with
      | .mark .closeBracket => .take .inner []
      | _ => .ofStart .inner [.type .union, .type .arguments] (startType false kind)
  | .union =>
      match kind with
      | .mark .pipe => .take .inner unionDue
      | _ => .leave .action
  | .bracket =>
      match kind with
      | .mark .closeBracket => .take .inner [.type (.due false)]
      | _ =>
          .ofStart .inner [.expr .value, expectMark .closeBracket, .type (.due false)]
            (startExpression .free kind)
  | .channel =>
      match kind with
      | .mark .arrow => .take .inner [.type (.due false)]
      | _ => .ofStart .inner [] (startType false kind)
  | .parameters =>
      match kind with
      | .mark .closeParen => .take .inner []
      | .mark .comma => .take .inner [expectMark .closeParen]
      | _ => .ofStart .inner [] (startParameter kind)
  | .parameterName =>
      match kind with
      | .mark .dot => .take .inner [.type .selector]
      | .mark .openBracket => .take .inner [.type (.nameBracket false)]
      | .mark .ellipsis => .take .inner [.type (.due false)]
      | _ =>
          match startType false kind with
          | some frames => .take .inner frames
          | none => .leave .action
  | .parameterEnd =>
      match kind with
      | .mark .comma => .take .inner [.type .moreParameters]
      | .mark .closeParen => .take .inner []
      | _ => .refuse
  | .moreParameters =>
      match kind with
      | .mark .closeParen => .take .inner []
      | _ => .ofStart .inner [] (startParameter kind)
  | .result =>
      match kind with
      | .mark .openParen => .take .inner [.type .parameters]
      | _ =>
          match startType false kind with
          | some frames => .take .inner frames
          | none => .leave .action
  | .recordOpen top =>
      match kind with
      | .mark .openBrace => .take (Role.recordOpen.onTop top) [.type (.fields top)]
      | _ => .refuse
  | .fields top =>
      match kind with
      | .mark .closeBrace => .take (Role.recordClose.onTop top) []
      | _ => startField top kind
  | .fieldName top =>
      match kind with
      | .mark .comma => .take (Role.fieldNamed.onTop top) [.type (.nextName top)]
      | .mark .dot => .take .inner [.type .selector, .type (.tag top)]
      | .mark .openBracket => .take .inner [.type (.nameBracket top), .type (.tag top)]
      | .string => .take (Role.tag.onTop top) []
      | _ =>
          match startType false kind with
          | some frames => .take (Role.fieldNamed.onTop top) (frames ++ [.type (.tag top)])
          | none => .leave .action
  | .nextName top =>
      if isWord kind then .take (Role.field.onTop top) [.type (.fieldNames top)] else .refuse
  | .fieldNames top =>
      match kind with
      | .mark .comma => .take .inner [.type (.nextName top)]
      | _ => .ofStart .inner [.type (.tag top)] (startType false kind)
  | .pointed => if isWord kind then .take .inner [.type .name] else .refuse
  | .tag top =>
      match kind with
      | .string => .take (Role.tag.onTop top) []
      | _ => .leave .action
  | .fieldEnd top =>
      if isTerminator kind then
        .take (Role.recordSplit.onTop top) [.type (.fields top)]
      else if kind = .mark .closeBrace then
        .take (Role.recordClose.onTop top) []
      else
        .refuse
  | .nameBracket top =>
      match kind with
      | .mark .closeBracket => .take (Role.fieldNamed.onTop top) [.type (.due false)]
      | _ =>
          .ofStart .inner [.expr (.indexItem (.name top) true true)] (startExpression .free kind)
  | .nameEnd top value type =>
      match (if value then startType false kind else none) with
      | some frames => .take (Role.fieldNamed.onTop top) frames
      | none => if type then .leave .action else .refuse
  | .elements =>
      match kind with
      | .mark .closeBrace => .take .inner []
      | _ =>
          if isWord kind then
            .take .inner [.type .elementName, .type .elementEnd]
          else
            .ofStart .inner [.type .union, .type .elementEnd] (startType false kind)
  | .elementName =>
      match kind with
      | .mark .openParen => .take .inner [.type .parameters, .type .result]
      | .mark .dot => .take .inner [.type .selector, .type .union]
      | .mark .openBracket => .take .inner (typeArguments ++ [.type .union])
      | .mark .pipe => .take .inner unionDue
      | _ => .leave .action
  | .elementEnd =>
      if isTerminator kind then .take .inner [.type .elements]
      else if kind = .mark .closeBrace then .take .inner []
      else .refuse
  | .constraint top =>
      if isWord kind then .take .inner [.type (.constraintName top)] else .refuse
  | .constraintName top =>
      match kind with
      | .mark .comma => .take .inner [.type (.constraint top)]
      | _ => .ofStart .inner [.type .union, .type (.constraintEnd top)] (startType false kind)
  | .constraintEnd top =>
      match kind with
      | .mark .comma => .take .inner [.type (.moreConstraints top)]
      | .mark .closeBracket => .take (Role.parameters.onTop top) []
      | _ => .refuse
  | .moreConstraints top =>
      match kind with
      | .mark .closeBracket => .take (Role.parameters.onTop top) []
      | _ => if isWord kind then .take .inner [.type (.constraintName top)] else .refuse

end GoGraft.Grammar
