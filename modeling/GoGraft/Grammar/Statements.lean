import GoGraft.Grammar.Start

/-! What the frames of statements do with a lexeme, and with what was read above them. -/

namespace GoGraft.Grammar

/-- The right side of an assignment. Where only a semicolon can follow it, a brace after a name is a
literal even in a header. -/
def Place.assigned (place : Place) (kind : LexemeKind) : Move :=
  let values (site : Site) : Move := .take .inner (valuesDue site)
  match place, kind with
  | .communication, .mark .update => .refuse
  | .communication, _ => .take .inner (valueDue .free ++ [.finished .action])
  | .forHeader, .mark .update => values .free
  | .forHeader, _ => .take .inner [.stmt .rangeOrValues]
  | .switchHeader, .mark .define =>
      .take .inner (expressionDue .definition ++ [.stmt .subjectOrValues])
  | .switchValue, .mark .define =>
      .take .inner (expressionDue .definition ++ [.stmt .subjectOnly])
  | .switchValue, _ => .refuse
  | .forUpdate, _ => values .header
  | _, _ => values .free

/-- Whether a statement that only acts may stand here. -/
def Place.allowsAction : Place → Bool
  | .communication | .switchValue => false
  | _ => true

def StmtFrame.move (frame : StmtFrame) (kind : LexemeKind) : Move :=
  match frame with
  | .statements =>
      match startStatement kind with
      | some frames => .take .inner (frames ++ [.stmt .statementEnd])
      | none => .leave .action
  | .statementEnd =>
      if isTerminator kind then .take .inner [.stmt .statements] else .leave .action
  | .blockEnd =>
      match kind with
      | .mark .closeBrace => .take .inner []
      | _ => .refuse
  | .labelled =>
      match kind with
      | .mark .closeBrace | .keyword .caseWord | .keyword .defaultWord => .leave .action
      | _ => .ofStart .inner [] (startStatement kind)
  | .results =>
      match startExpression .free kind with
      | some frames => .take .inner (frames ++ [.expr (.values .free)])
      | none => .leave .action
  | .jump => if isWord kind then .take .inner [] else .leave .action
  | .simpleEnd place word =>
      match kind with
      | .mark .comma => .take .inner (expressionDue place.site.operand ++ [.stmt (.target place)])
      | .mark .increment | .mark .decrement =>
          if place.allowsAction then .take .inner [.finished .action] else .refuse
      | .mark .arrow =>
          if place = .switchValue then .refuse
          else .take .inner (valueDue place.site.operand ++ [.finished .action])
      | .mark .colon =>
          if place = .statement && word then .take .inner [.stmt .labelled] else .leave .value
      | _ => if isAssignment kind then place.assigned kind else .leave .value
  | .targetEnd place =>
      match kind with
      | .mark .comma => .take .inner (expressionDue place.site.operand ++ [.stmt (.target place)])
      | _ => if isAssignment kind then place.assigned kind else .refuse
  | .rangeOrValues =>
      match kind with
      | .keyword .rangeWord => .take .inner (valueDue .header ++ [.finished .range])
      | _ => .ofStart .inner [.expr (.values .free)] (startExpression .free kind)
  | .ifHeader => .ofStart .inner [.stmt .ifWait] (startSimple .ifHeader kind)
  | .ifEnd condition =>
      match kind with
      | .mark .semicolon =>
          .take .inner (valueDue .header ++ blockDue ++ [.stmt .alternative])
      | .mark .openBrace =>
          if condition then .take .inner (block ++ [.stmt .alternative]) else .refuse
      | _ => .refuse
  | .alternative =>
      match kind with
      | .keyword .elseWord => .take .inner [.stmt .alternativeBody]
      | _ => .leave .action
  | .alternativeBody =>
      match kind with
      | .keyword .ifWord => .take .inner [.stmt .ifHeader]
      | .mark .openBrace => .take .inner block
      | _ => .refuse
  | .forHeader =>
      match kind with
      | .mark .openBrace => .take .inner block
      | .mark .semicolon => .take .inner [.stmt .forCondition]
      | .keyword .rangeWord => .take .inner (valueDue .header ++ blockDue)
      | _ => .ofStart .inner [.stmt .forWait] (startSimple .forHeader kind)
  | .forEnd body clause =>
      match kind with
      | .mark .openBrace => if body then .take .inner block else .refuse
      | .mark .semicolon => if clause then .take .inner [.stmt .forCondition] else .refuse
      | _ => .refuse
  | .forCondition =>
      match kind with
      | .mark .semicolon => .take .inner [.stmt .forUpdate]
      | _ =>
          .ofStart .inner [.expr .value, expectMark .semicolon, .stmt .forUpdate]
            (startExpression .free kind)
  | .forUpdate =>
      match kind with
      | .mark .openBrace => .take .inner block
      | _ => .ofStart .inner blockDue (startSimple .forUpdate kind)
  | .switchHeader =>
      match kind with
      | .mark .openBrace => .take .inner [.stmt (.clauses .values)]
      | _ => .ofStart .inner [.stmt .switchWait] (startSimple .switchHeader kind)
  | .switchEnd value =>
      match kind with
      | .mark .semicolon => .take .inner [.stmt .switchValue]
      | .mark .openBrace =>
          if value then .take .inner [.stmt (.clauses .values)] else .refuse
      | _ => .refuse
  | .switchValue =>
      match kind with
      | .mark .openBrace => .take .inner [.stmt (.clauses .values)]
      | _ => .ofStart .inner [.stmt .switchValueWait] (startSimple .switchValue kind)
  | .switchOpen held =>
      match kind with
      | .mark .openBrace => .take .inner [.stmt (.clauses held)]
      | _ => .refuse
  | .clauses held =>
      match kind with
      | .mark .closeBrace => .take .inner []
      | .keyword .defaultWord =>
          .take .inner [expectMark .colon, .stmt .statements, .stmt (.clauses held)]
      | .keyword .caseWord =>
          let body := [expectMark .colon, .stmt .statements, .stmt (.clauses held)]
          match held with
          | .values => .take .inner (valuesDue .free ++ body)
          | .types => .take .inner [.type (.due false), .stmt .caseTypes]
          | .communications =>
              .take .inner (expressionDue .free ++ .stmt (.simple .communication) :: body)
      | _ => .refuse
  | .caseTypes =>
      match kind with
      | .mark .comma => .take .inner [.type (.due false), .stmt .caseTypes]
      | .mark .colon => .take .inner [.stmt .statements, .stmt (.clauses .types)]
      | _ => .refuse
  | .simple _ | .target _ | .subjectOrValues | .subjectOnly | .ifWait | .forWait | .switchWait
  | .switchValueWait => .refuse

/-- The frame that takes the place of one whose upper part has been read. -/
def StmtFrame.resume (frame : StmtFrame) (reading : Reading) : Option Frame :=
  match frame, reading with
  | .simple place, .phrase phrase =>
      if phrase.value then some (.stmt (.simpleEnd place phrase.word)) else none
  | .simple _, reading => some (.finished reading)
  | .target place, .phrase phrase =>
      if phrase.value then some (.stmt (.targetEnd place)) else none
  | .target _, _ => none
  | .subjectOrValues, .guard => some (.finished .guard)
  | .subjectOrValues, .phrase phrase =>
      if phrase.value then some (.expr (.moreValues .free)) else none
  | .subjectOrValues, _ => none
  | .subjectOnly, .guard => some (.finished .guard)
  | .subjectOnly, _ => none
  | .ifWait, .phrase _ => some (.stmt (.ifEnd true))
  | .ifWait, .action => some (.stmt (.ifEnd false))
  | .ifWait, _ => none
  | .forWait, .phrase _ => some (.stmt (.forEnd true true))
  | .forWait, .action => some (.stmt (.forEnd false true))
  | .forWait, .range => some (.stmt (.forEnd true false))
  | .forWait, _ => none
  | .switchWait, .phrase _ => some (.stmt (.switchEnd true))
  | .switchWait, .action => some (.stmt (.switchEnd false))
  | .switchWait, .guard => some (.stmt (.switchOpen .types))
  | .switchWait, _ => none
  | .switchValueWait, .phrase _ => some (.stmt (.switchOpen .values))
  | .switchValueWait, .guard => some (.stmt (.switchOpen .types))
  | .switchValueWait, _ => none
  | frame, _ => some (.stmt frame)

end GoGraft.Grammar
