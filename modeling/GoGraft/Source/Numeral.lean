import GoGraft.Text.Basic

/-! Number literals: integers in four bases, decimal and hexadecimal floats, and imaginary numbers. -/

namespace GoGraft.Numeral

def isHexDigit (c : Char) : Bool :=
  c.isDigit || ('a' ≤ c && c ≤ 'f') || ('A' ≤ c && c ≤ 'F')

def isOctalDigit (c : Char) : Bool :=
  '0' ≤ c && c ≤ '7'

def isBinaryDigit (c : Char) : Bool :=
  c == '0' || c == '1'

/-- Digits, with single underscores between them. -/
def isDigits (digit : Char → Bool) : Text → Bool
  | [] => false
  | [c] => digit c
  | c :: '_' :: rest => digit c && isDigits digit rest
  | c :: rest => digit c && isDigits digit rest

/-- Digits that one underscore may precede. -/
def isSpacedDigits (digit : Char → Bool) : Text → Bool
  | '_' :: rest => isDigits digit rest
  | text => isDigits digit text

def isInteger : Text → Bool
  | ['0'] => true
  | '0' :: c :: rest =>
      if c == 'x' || c == 'X' then isSpacedDigits isHexDigit rest
      else if c == 'b' || c == 'B' then isSpacedDigits isBinaryDigit rest
      else if c == 'o' || c == 'O' then isSpacedDigits isOctalDigit rest
      else isSpacedDigits isOctalDigit (c :: rest)
  | text => isDigits Char.isDigit text

def isExponent : Text → Bool
  | '+' :: rest => isDigits Char.isDigit rest
  | '-' :: rest => isDigits Char.isDigit rest
  | text => isDigits Char.isDigit text

/-- A point with digits on at least one side; `whole` judges the digits before it. -/
def isPointed (whole digit : Text → Bool) (text : Text) : Bool :=
  match text.dropWhile (· != '.') with
  | '.' :: fraction =>
      let before := text.takeWhile (· != '.')
      if before.isEmpty then digit fraction
      else whole before && (fraction.isEmpty || digit fraction)
  | _ => false

def isDecimalFloat (text : Text) : Bool :=
  let digits := isDigits Char.isDigit
  match text.dropWhile (fun c => c != 'e' && c != 'E') with
  | _ :: power =>
      let mantissa := text.takeWhile (fun c => c != 'e' && c != 'E')
      (digits mantissa || isPointed digits digits mantissa) && isExponent power
  | [] => isPointed digits digits text

def isHexFloat : Text → Bool
  | '0' :: x :: rest =>
      (x == 'x' || x == 'X') &&
        match rest.dropWhile (fun c => c != 'p' && c != 'P') with
        | _ :: power =>
            let mantissa := rest.takeWhile (fun c => c != 'p' && c != 'P')
            let whole := isSpacedDigits isHexDigit
            (whole mantissa || isPointed whole (isDigits isHexDigit) mantissa) && isExponent power
        | [] => false
  | _ => false

def isReal (text : Text) : Bool :=
  isInteger text || isDecimalFloat text || isHexFloat text

def isLiteral (text : Text) : Bool :=
  isReal text ||
    (text.getLast? == some 'i' &&
      (isDigits Char.isDigit text.dropLast || isReal text.dropLast))

end GoGraft.Numeral
