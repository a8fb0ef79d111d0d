import SceneScript.Typing.Expr

/-!
# Fault — why a running script stops

A fault has a cause, the place of the expression or statement that met it, and the functions
that were running, the innermost first. A failure of the host itself is a fault too, without
place and functions.
-/

namespace SceneScript

/-- The kinds of fault. -/
inductive FaultKind where
  | divisionByZero | invalidReference | stackOverflow | nodeNotFound
  | unknownFunction | argumentMismatch | internal
deriving DecidableEq, Repr

namespace FaultKind

/-- The word for a kind of fault. -/
def word : FaultKind → String
  | .divisionByZero   => "DivisionByZero"
  | .invalidReference => "InvalidReference"
  | .stackOverflow    => "StackOverflow"
  | .nodeNotFound     => "NodeNotFound"
  | .unknownFunction  => "UnknownFunction"
  | .argumentMismatch => "ArgumentMismatch"
  | .internal         => "Internal"

/-- The registered code. -/
def code : FaultKind → String
  | .divisionByZero   => "E400"
  | .invalidReference => "E402"
  | .stackOverflow    => "E403"
  | .nodeNotFound     => "E405"
  | .unknownFunction  => "E413"
  | .argumentMismatch => "E414"
  | .internal         => "E415"

end FaultKind

/-- What makes a script stop. The causes from `noReturn` on are those that checking rules
    out. -/
inductive FaultCause where
  | divisionByZero
  | freed (ref : NodeRef)
  | tooDeep (limit : Int) (function : Text)
  | noNodeAt (path : Text)
  | noParent
  | noChild (name : Text)
  | unknownFunction (function : Text)
  | argumentCount (function : Text) (expected found : Nat)
  | argumentType (param function : Text) (expected found : Ty)
  | noReturn (function : Text) (expected : Ty)
  | condition (found : Ty)
  | noNodeField (field : Text)
  | noField (type : Ty) (field : Text)
  | cannotStore (found type : Ty) (field : Text)
  | unaryOperand (op : UnaryOp) (found : Ty)
  | binaryOperands (op : BinaryOp) (left right : Ty)
  | invalidLiteral (typeName : Text)
  | emitWithoutName
  | undeclaredSignal (signal : Text)
  | missingArgument (function : Text)
  | wrongArgument (function : Text) (found : Ty)
  | noValue (name : Text)
  | hostFailure (message : Text)
deriving DecidableEq, Repr

namespace FaultCause

/-- The kind of a cause. -/
def kind : FaultCause → FaultKind
  | .divisionByZero       => .divisionByZero
  | .freed _              => .invalidReference
  | .tooDeep _ _          => .stackOverflow
  | .noNodeAt _           => .nodeNotFound
  | .noParent             => .nodeNotFound
  | .noChild _            => .nodeNotFound
  | .unknownFunction _    => .unknownFunction
  | .argumentCount _ _ _  => .argumentMismatch
  | .argumentType _ _ _ _ => .argumentMismatch
  | _                     => .internal

/-- The wording. -/
def message : FaultCause → Text
  | .divisionByZero => "Integer division by zero"
  | .freed ref => "Node " ++ ref.text ++ " has been freed"
  | .tooDeep limit f => s!"Maximum call depth of {limit} exceeded in '" ++ f ++ "'"
  | .noNodeAt path => "Node not found at path '" ++ path ++ "'"
  | .noParent => "Node has no parent"
  | .noChild name => "No child named '" ++ name ++ "'"
  | .unknownFunction f => "Function '" ++ f ++ "' is not defined"
  | .argumentCount f n found =>
      "Function '" ++ f ++ s!"' expects {n} {Problem.argumentsWord n}, got {found}"
  | .argumentType p f expected found =>
      "Argument '" ++ p ++ "' of '" ++ f ++ s!"' expects {expected}, got {found}"
  | .noReturn f t => "Function '" ++ f ++ s!"' ended without returning a {t}"
  | .condition t => s!"Condition evaluated to {t}"
  | .noNodeField f => "Node has no field '" ++ f ++ "'"
  | .noField t f => s!"{t} has no field '" ++ f ++ "'"
  | .cannotStore found t f => s!"Cannot store {found} into {t}." ++ f
  | .unaryOperand op t => s!"'{op.symbol}' applied to {t}"
  | .binaryOperands op l r => s!"Operator '{op.symbol}' applied to {l} and {r}"
  | .invalidLiteral n => "Invalid " ++ n ++ " literal"
  | .emitWithoutName => "emit_signal() without a signal name"
  | .undeclaredSignal s => "Signal '" ++ s ++ "' is not declared"
  | .missingArgument f => "Missing argument 1 of '" ++ f ++ "'"
  | .wrongArgument f t => "Argument 1 of '" ++ f ++ s!"' is {t}"
  | .noValue n => "Variable '" ++ n ++ "' has no value"
  | .hostFailure m => m

end FaultCause

/-- A stop, with the functions that were running, innermost first. -/
structure Fault where
  cause : FaultCause
  span  : Option Span := none
  trace : List Text := []
deriving DecidableEq, Repr

namespace Fault

/-- The kind of a fault. -/
def kind (f : Fault) : FaultKind := f.cause.kind

/-- The registered code. -/
def code (f : Fault) : String := f.kind.code

/-- The wording. -/
def message (f : Fault) : Text := f.cause.message

/-- The fault as seen outside a function that was running; a failure of the host has no
    functions. -/
def within (f : Fault) (function : Text) : Fault :=
  match f.cause with
  | .hostFailure _ => f
  | _              => { f with trace := f.trace ++ [function] }

/-- The fault in the shape of a diagnostic. -/
def diagnostic (f : Fault) : Diagnostic :=
  let hint :=
    if f.trace.isEmpty then none
    else some ("in " ++ Text.join " <- " f.trace)
  .make .error f.code (f.kind.word ++ ": " ++ f.message) (f.span.getD .origin) (some .runtime) hint

end Fault

end SceneScript
