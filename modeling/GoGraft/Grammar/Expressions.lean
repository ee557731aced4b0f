import GoGraft.Grammar.Start

/-! What the frames of expressions do with a lexeme, and with what was read above them. A type can be an
operand, and brackets can hold types as well as expressions, so phrases are read as both until what follows
them decides. -/

namespace GoGraft.Grammar

/-- What may be attached to an operand of a given shape. -/
def Shape.move (shape : Shape) (site : Site) (kind : LexemeKind) : Move :=
  let done : Move :=
    match shape.reading? with
    | some phrase => .leave (.phrase phrase)
    | none => .refuse
  let called : List Frame := [.expr (.postfixes .value site)]
  match kind with
  | .mark .dot =>
      if shape.isValue then .take .inner [.expr (.selector shape site)] else .refuse
  | .mark .openParen =>
      match shape with
      | .maker => .take .inner (.expr .makerArguments :: called)
      | .applied _ _ true => .take .inner (.expr .arguments :: called)
      | _ =>
          if shape.isValue then .take .inner (.expr .arguments :: called)
          else if shape.isType then
            .take .inner (valueDue .free ++ .expr .conversionEnd :: called)
          else .refuse
  | .mark .openBracket =>
      if shape.isValue || shape.isType then
        .take .inner [.expr (.index (.phrase shape site))]
      else
        .refuse
  | .mark .openBrace =>
      let literal : Move := .take .inner (.expr .literal :: called)
      match shape with
      | .aggregate | .counted => literal
      | .name | .qualified => if site.block then done else literal
      | .applied _ true _ => if site.block then done else literal
      | _ => done
  | _ => done

/-- The frames after the closing bracket. -/
def Indexed.close (indexed : Indexed) (value types unions : Bool) : Option (List Frame) :=
  match indexed with
  | .phrase shape site =>
      let asValue := (value && shape.isValue) || (types && shape.isType)
      let asType := unions && shape.isNamed
      let asCall := unions && shape.isValue
      if asValue || asType || asCall then
        some [.expr (.postfixes (.applied asValue asType asCall) site)]
      else
        none
  | .name top =>
      if value || unions then some [.type (.nameEnd top value unions)] else none
  | .parameter top =>
      if value || types then
        some [.decl (.typeParameterIndexEnd top (.applied (value || types) unions unions) value)]
      else
        none

def Indexed.isValue : Indexed → Bool
  | .phrase shape _ => shape.isValue
  | .name _ => false
  | .parameter _ => true

def Indexed.sliceSite : Indexed → Site
  | .phrase _ site => site
  | _ => .free

def ExprFrame.move (frame : ExprFrame) (kind : LexemeKind) : Move :=
  match frame with
  | .operand site => .ofStart .inner [] (startOperand site kind)
  | .received site =>
      match kind with
      | .keyword .chanWord => .take .inner [.type (.due false), .expr (.postfixes .bare site)]
      | _ => .ofStart .inner [.expr .signed] (startOperand site kind)
  | .postfixes shape site => shape.move site kind
  | .selector shape site =>
      match kind with
      | .mark .openParen => .take .inner [.expr (.assertion site)]
      | _ =>
          if isWord kind then
            .take .inner [.expr (.postfixes (if shape = .name then .qualified else .value) site)]
          else
            .refuse
  | .assertion site =>
      match kind with
      | .keyword .typeWord =>
          if site.subject then
            .take .inner [expectMark .closeParen, .finished .guard]
          else
            .refuse
      | _ =>
          .ofStart .inner [expectMark .closeParen, .expr (.postfixes .value site)]
            (startType false kind)
  | .chain soFar site =>
      match soFar with
      | .phrase phrase =>
          let pipe := kind = .mark .pipe
          if isBinary kind && (phrase.value || (pipe && phrase.union)) then
            .take .inner
              [.expr (.operand site.operand), .expr (.later phrase pipe site.operand)]
          else
            .leave soFar
      | _ => .leave soFar
  | .moreValues site =>
      match kind with
      | .mark .comma => .take .inner (valuesDue site)
      | _ => .leave .action
  | .groupEnd asValue asType site =>
      match kind with
      | .mark .closeParen => .take .inner [.expr (.postfixes (.grouped asValue asType) site)]
      | _ => .refuse
  | .arrayBracket site =>
      match kind with
      | .mark .closeBracket =>
          .take .inner [.type (.due false), .expr (.postfixes .aggregate site)]
      | .mark .ellipsis =>
          .take .inner
            [expectMark .closeBracket, .type (.due false), .expr (.postfixes .counted site)]
      | _ =>
          .ofStart .inner
            [.expr .value, expectMark .closeBracket, .type (.due false),
              .expr (.postfixes .aggregate site)]
            (startExpression .free kind)
  | .index indexed =>
      match kind with
      | .mark .colon =>
          if indexed.isValue then
            .take .inner [.expr (.sliceHigh indexed.sliceSite)]
          else
            .refuse
      | _ =>
          .ofStart .inner [.expr (.indexItem indexed true true)] (startExpression .free kind)
  | .indexEnd indexed asValue types unions =>
      match kind with
      | .mark .closeBracket => .ofStart .inner [] (indexed.close asValue types unions)
      | .mark .colon =>
          if asValue && indexed.isValue then
            .take .inner [.expr (.sliceHigh indexed.sliceSite)]
          else
            .refuse
      | .mark .comma =>
          if unions then .take .inner [.expr (.moreIndices indexed types)] else .refuse
      | _ => .refuse
  | .moreIndices indexed types =>
      match kind with
      | .mark .closeBracket => .ofStart .inner [] (indexed.close false types true)
      | _ =>
          .ofStart .inner [.expr (.indexItem indexed false types)] (startExpression .free kind)
  | .sliceHigh site =>
      match kind with
      | .mark .closeBracket => .take .inner [.expr (.postfixes .value site)]
      | _ =>
          .ofStart .inner [.expr .value, .expr (.sliceEnd site)] (startExpression .free kind)
  | .sliceEnd site =>
      match kind with
      | .mark .closeBracket => .take .inner [.expr (.postfixes .value site)]
      | .mark .colon =>
          .take .inner
            (valueDue .free ++ [expectMark .closeBracket, .expr (.postfixes .value site)])
      | _ => .refuse
  | .arguments =>
      match kind with
      | .mark .closeParen => .take .inner []
      | _ => .ofStart .inner [.expr (.argument false)] (startExpression .free kind)
  | .makerArguments =>
      match kind with
      | .mark .closeParen => .take .inner []
      | _ => .ofStart .inner [.expr (.argument true)] (startExpression .free kind)
  | .argumentEnd =>
      match kind with
      | .mark .closeParen => .take .inner []
      | .mark .comma => .take .inner [.expr .arguments]
      | .mark .ellipsis => .take .inner [.expr .spread]
      | _ => .refuse
  | .spread =>
      match kind with
      | .mark .closeParen => .take .inner []
      | .mark .comma => .take .inner [.expr .arguments]
      | _ => .refuse
  | .conversionEnd =>
      match kind with
      | .mark .closeParen => .take .inner []
      | .mark .comma => .take .inner [expectMark .closeParen]
      | _ => .refuse
  | .literal =>
      match kind with
      | .mark .comma => .take .inner [expectMark .closeBrace]
      | .mark .closeBrace => .take .inner []
      | .mark .openBrace => .take .inner [.expr .literal, .expr .elementEnd]
      | _ => .ofStart .inner [.expr .value, .expr .elementEnd] (startExpression .free kind)
  | .moreElements =>
      match kind with
      | .mark .closeBrace => .take .inner []
      | .mark .openBrace => .take .inner [.expr .literal, .expr .elementEnd]
      | _ => .ofStart .inner [.expr .value, .expr .elementEnd] (startExpression .free kind)
  | .elementEnd =>
      match kind with
      | .mark .colon => .take .inner [.expr .elementValue]
      | .mark .comma => .take .inner [.expr .moreElements]
      | .mark .closeBrace => .take .inner []
      | _ => .refuse
  | .elementValue =>
      match kind with
      | .mark .openBrace => .take .inner [.expr .literal, .expr .keyedEnd]
      | _ => .ofStart .inner [.expr .value, .expr .keyedEnd] (startExpression .free kind)
  | .keyedEnd =>
      match kind with
      | .mark .comma => .take .inner [.expr .moreElements]
      | .mark .closeBrace => .take .inner []
      | _ => .refuse
  | .functionResult site =>
      match kind with
      | .mark .openParen => .take .inner [.type .parameters, .expr (.functionBody site)]
      | .mark .openBrace => .take .inner (block ++ [.expr (.postfixes .value site)])
      | _ =>
          match startType false kind with
          | some frames => .take .inner (frames ++ [.expr (.functionBody site)])
          | none => Shape.bare.move site kind
  | .functionBody site =>
      match kind with
      | .mark .openBrace => .take .inner (block ++ [.expr (.postfixes .value site)])
      | _ => Shape.bare.move site kind
  | .pointed | .signed | .first _ | .later _ _ _ | .value | .values _ | .group _
  | .indexItem _ _ _ | .argument _ => .refuse

/-- The frame that takes the place of one whose upper part has been read. -/
def ExprFrame.resume (frame : ExprFrame) (reading : Reading) : Option Frame :=
  match frame, reading with
  | .pointed, .phrase phrase => some (.finished (.phrase { phrase with word := false }))
  | .pointed, _ => none
  | .signed, .phrase phrase => if phrase.value then some (.finished .value) else none
  | .signed, _ => none
  | .first site, .phrase phrase => some (.expr (.chain (.phrase phrase) site))
  | .first site, .guard => if site.subject then some (.expr (.chain .guard site)) else none
  | .first _, _ => none
  | .later soFar pipe site, .phrase phrase =>
      let asValue := soFar.value && phrase.value
      let asUnion := soFar.union && pipe && phrase.type
      if asValue || asUnion then
        some (.expr (.chain (.phrase ⟨asValue, false, asUnion, false⟩) site))
      else
        none
  | .later _ _ _, _ => none
  | .value, .phrase phrase => if phrase.value then some (.finished .value) else none
  | .value, _ => none
  | .values site, .phrase phrase =>
      if phrase.value then some (.expr (.moreValues site)) else none
  | .values _, _ => none
  | .group site, .phrase phrase =>
      if phrase.value || phrase.type then
        some (.expr (.groupEnd phrase.value phrase.type site))
      else
        none
  | .group _, _ => none
  | .indexItem indexed single types, .phrase phrase =>
      if (single && phrase.value) || phrase.union then
        some (.expr (.indexEnd indexed (single && phrase.value) (types && phrase.type) phrase.union))
      else
        none
  | .indexItem _ _ _, _ => none
  | .argument maker, .phrase phrase =>
      if phrase.value || (maker && phrase.type) then some (.expr .argumentEnd) else none
  | .argument _, _ => none
  | frame, _ => some (.expr frame)

end GoGraft.Grammar
