import SceneScript.Ast
import SceneScript.Diagnostic

/-!
# SyntaxError — what can be wrong with the shape of a script

Each cause of a syntax error is one constructor; its code, its wording and its hint are
functions of the cause. Where a cause depends on what was found instead, `none` stands for the
end of the file.
-/

namespace SceneScript

/-- A name or mark that has to come next. -/
inductive Expected where
  | annotationName
  | hintName
  | functionName
  | signalName
  | variableName
  | fieldName
  | structFieldName (typeName : Text)
deriving DecidableEq, Repr

/-- What a message asks for. -/
def Expected.wording : Expected → Text
  | .annotationName    => "Expected annotation name after '@'"
  | .hintName          => "Expected a hint such as range(...), enum(...) or file(...)"
  | .functionName      => "Expected function name after 'fn'"
  | .signalName        => "Expected signal name after 'signal'"
  | .variableName      => "Expected variable name after 'let'"
  | .fieldName         => "Expected field name after '.'"
  | .structFieldName t => "Expected field name in '" ++ t ++ "' literal"

/-- A mark that has to follow a name. -/
inductive Mark where
  | hintParen (hint : Text)
  | signalParen (signal : Text)
  | fieldColon (field : Text)
deriving DecidableEq, Repr

/-- What a message asks for. -/
def Mark.wording : Mark → Text
  | .hintParen h   => "Expected '(' after hint '" ++ h ++ "'"
  | .signalParen s => "Expected '(' after signal name '" ++ s ++ "'"
  | .fieldColon f  => "Expected ':' after field '" ++ f ++ "'"

/-- Something that has to be closed. -/
inductive Enclosed where
  | hintCall (hint : Text)
  | exportMark
  | parameters
  | parenthesized
  | callOf (callee : Text)
  | structLiteral (typeName : Text)
deriving DecidableEq, Repr

/-- The closing mark that a message asks for. -/
def Enclosed.wording : Enclosed → Text
  | .hintCall h      => "')' to close '" ++ h ++ "(...)'"
  | .exportMark      => "')' to close '@export(...)'"
  | .parameters      => "')' to close the parameter list"
  | .parenthesized   => "')' to close the parenthesized expression"
  | .callOf f        => "')' to close the call to '" ++ f ++ "'"
  | .structLiteral t => "'\x7d' to close the '" ++ t ++ "' literal"

/-- Something that a semicolon ends. -/
inductive Ended where
  | signalDeclaration | variableDeclaration | returnStatement | assignment | expression
deriving DecidableEq, Repr

/-- What a message calls it. -/
def Ended.wording : Ended → Text
  | .signalDeclaration   => "signal declaration"
  | .variableDeclaration => "variable declaration"
  | .returnStatement     => "return statement"
  | .assignment          => "assignment"
  | .expression          => "expression"

/-- Something that a block follows. -/
inductive BlockHead where
  | ifCondition | elseWord | whileCondition
deriving DecidableEq, Repr

/-- What a message calls it. -/
def BlockHead.wording : BlockHead → Text
  | .ifCondition    => "'if' condition"
  | .elseWord       => "'else'"
  | .whileCondition => "'while' condition"

/-- Why a script has the wrong shape. -/
inductive SyntaxError where
  | annotationNeedsLet (found : Option Token)
  | expectedDeclaration (found : Option Token)
  | unknownMark (name : Text)
  | functionNeedsParen (name : Text) (found : Option Token)
  | functionNeedsBody (name : Text) (found : Option Token)
  | expectedReturnType (found : Option Token)
  | parametersUnfinished
  | expectedParameter (found : Option Token)
  | parameterWithoutType (name : Text)
  | typeUnfinished
  | expectedType (found : Option Token)
  | blockUnfinished
  | blockNotClosed
  | strayElse
  | expectedInitializer (name : Text) (found : Option Token)
  | invalidTarget
  | methodCall (name : Text)
  | integerTooLarge (numeral : Text)
  | expressionUnfinished
  | expectedExpression (found : Option Token)
  | assignInExpression (op : AssignOp) (comparing : Bool)
  | missingName (expected : Expected) (found : Option Token)
  | missingMark (mark : Mark) (found : Option Token)
  | missingClose (enclosed : Enclosed) (found : Option Token)
  | missingSemicolon (ended : Ended) (found : Option Token)
  | missingBlock (head : BlockHead) (found : Option Token)
deriving DecidableEq, Repr

namespace SyntaxError

/-- The code of an error that has another one at the end of the file. -/
def codeAt (code : String) : Option Token → String
  | none   => "E108"
  | some _ => code

/-- The registered code. -/
def code : SyntaxError → String
  | .annotationNeedsLet _    => "E101"
  | .expectedDeclaration _   => "E101"
  | .unknownMark _           => "E101"
  | .functionNeedsParen _ _  => "E105"
  | .functionNeedsBody _ _   => "E105"
  | .expectedReturnType _    => "E112"
  | .parametersUnfinished    => "E108"
  | .expectedParameter _     => "E111"
  | .parameterWithoutType _  => "E110"
  | .typeUnfinished          => "E108"
  | .expectedType _          => "E106"
  | .blockUnfinished         => "E108"
  | .blockNotClosed          => "E102"
  | .strayElse               => "E104"
  | .expectedInitializer _ _ => "E100"
  | .invalidTarget           => "E217"
  | .methodCall _            => "E103"
  | .integerTooLarge _       => "E004"
  | .expressionUnfinished    => "E108"
  | .expectedExpression _    => "E103"
  | .assignInExpression _ _  => "E113"
  | .missingName _ found     => codeAt "E109" found
  | .missingMark _ found     => codeAt "E100" found
  | .missingClose _ found    => codeAt "E102" found
  | .missingSemicolon _ _    => "E100"
  | .missingBlock _ found    => codeAt "E100" found

/-- What was found, at the end of a message. -/
def foundText (found : Option Token) : Text := ", found " ++ Token.describe? found

/-- The wording. -/
def message : SyntaxError → Text
  | .annotationNeedsLet found =>
      "An '@export' annotation must be followed by a global 'let'" ++ foundText found
  | .expectedDeclaration found =>
      "Expected 'fn', 'let' or 'signal' at top level" ++ foundText found
  | .unknownMark name => "Unknown annotation '@" ++ name ++ "'"
  | .functionNeedsParen name found =>
      "Expected '(' after function name '" ++ name ++ "'" ++ foundText found
  | .functionNeedsBody name found =>
      "Expected '\x7b' to start the body of '" ++ name ++ "'" ++ foundText found
  | .expectedReturnType found => "Expected return type after '->'" ++ foundText found
  | .parametersUnfinished => "Unexpected end of file in parameter list"
  | .expectedParameter found => "Expected parameter name" ++ foundText found
  | .parameterWithoutType name => "Parameter '" ++ name ++ "' is missing a type annotation"
  | .typeUnfinished => "Unexpected end of file, expected a type"
  | .expectedType found => "Expected a type name" ++ foundText found
  | .blockUnfinished => "Unexpected end of file, expected '\x7d'"
  | .blockNotClosed => "Missing '\x7d' to close this block"
  | .strayElse => "'else' without a matching 'if'"
  | .expectedInitializer name found => "Expected '=' after '" ++ name ++ "'" ++ foundText found
  | .invalidTarget => "Invalid assignment target"
  | .methodCall name => "Method calls are not supported ('" ++ name ++ "(...)')"
  | .integerTooLarge numeral => "Integer literal '" ++ numeral ++ "' does not fit in i32"
  | .expressionUnfinished => "Unexpected end of file, expected an expression"
  | .expectedExpression found => "Expected expression" ++ foundText found
  | .assignInExpression op _ =>
      s!"Assignment operator '{op.symbol}' cannot be used inside an expression"
  | .missingName expected none => "Unexpected end of file. " ++ expected.wording
  | .missingName expected found => expected.wording ++ foundText found
  | .missingMark mark none => "Unexpected end of file. " ++ mark.wording
  | .missingMark mark found => mark.wording ++ foundText found
  | .missingClose enclosed none => "Unexpected end of file, expected " ++ enclosed.wording
  | .missingClose enclosed found => "Expected " ++ enclosed.wording ++ foundText found
  | .missingSemicolon ended found => "Expected ';' after " ++ ended.wording ++ foundText found
  | .missingBlock head none => "Unexpected end of file, expected '\x7b' after " ++ head.wording
  | .missingBlock head found => "Expected '\x7b' after " ++ head.wording ++ foundText found

/-- The advice that goes with it. -/
def hint : SyntaxError → Option Text
  | .unknownMark _ => some "The only annotation is '@export'."
  | .parameterWithoutType name => some ("Write '" ++ name ++ ": f32' (or another type).")
  | .invalidTarget => some "Only variables, 'self' and their fields can be assigned to."
  | .integerTooLarge _ => some "Only '-2147483648' may use this magnitude."
  | .assignInExpression .set true => some "Use '==' to compare values."
  | _ => none

/-- The diagnostic of a syntax error. -/
def diagnostic (e : SyntaxError) (span : Span) : Diagnostic :=
  .make .error e.code e.message span (some .parser) e.hint

end SyntaxError

end SceneScript
