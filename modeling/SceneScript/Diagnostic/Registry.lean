/-!
# Registry — the codes of all diagnostics

Every diagnostic has a code, and every code belongs to a family and has a title. The table is
the list of codes that tools show.
-/

namespace SceneScript

/-- Families of codes. -/
inductive Family where
  | lexical | syntactic | typing | signal | lifecycle | structs | exports | runtime | lint
deriving DecidableEq, Repr

namespace Family

/-- All families. -/
def all : List Family :=
  [.lexical, .syntactic, .typing, .signal, .lifecycle, .structs, .exports, .runtime, .lint]

/-- The word for a family. -/
def word : Family → String
  | .lexical   => "lexical"
  | .syntactic => "syntax"
  | .typing    => "type"
  | .signal    => "signal"
  | .lifecycle => "lifecycle"
  | .structs   => "struct"
  | .exports   => "export"
  | .runtime   => "runtime"
  | .lint      => "lint"

/-- The heading of a family. -/
def label : Family → String
  | .lexical   => "Lexical Error"
  | .syntactic => "Syntax Error"
  | .typing    => "Type Error"
  | .signal    => "Signal Error"
  | .lifecycle => "Lifecycle Error"
  | .structs   => "Struct Literal Error"
  | .exports   => "Export Error"
  | .runtime   => "Runtime Error"
  | .lint      => "Warning"

/-- The family that a word names. -/
def ofWord? (w : String) : Option Family := all.find? fun f => f.word == w

end Family

/-- A registered code. -/
structure CodeInfo where
  code   : String
  family : Family
  title  : String
deriving DecidableEq, Repr

/-- All registered codes. -/
def codeTable : List CodeInfo :=
  [⟨"E001", .lexical, "Invalid character"⟩,
   ⟨"E002", .lexical, "Unterminated string literal"⟩,
   ⟨"E003", .lexical, "Invalid escape sequence"⟩,
   ⟨"E004", .lexical, "Invalid number format"⟩,
   ⟨"E100", .syntactic, "Expected token"⟩,
   ⟨"E101", .syntactic, "Unexpected token"⟩,
   ⟨"E102", .syntactic, "Missing closing delimiter"⟩,
   ⟨"E103", .syntactic, "Invalid expression"⟩,
   ⟨"E104", .syntactic, "Invalid statement"⟩,
   ⟨"E105", .syntactic, "Invalid function declaration"⟩,
   ⟨"E106", .syntactic, "Invalid type annotation"⟩,
   ⟨"E108", .syntactic, "Unexpected end of file"⟩,
   ⟨"E109", .syntactic, "Missing identifier"⟩,
   ⟨"E110", .syntactic, "Missing type annotation"⟩,
   ⟨"E111", .syntactic, "Invalid function parameter"⟩,
   ⟨"E112", .syntactic, "Invalid return type"⟩,
   ⟨"E113", .syntactic, "Invalid operator"⟩,
   ⟨"E200", .typing, "Type mismatch"⟩,
   ⟨"E201", .typing, "Undefined variable"⟩,
   ⟨"E202", .typing, "Undefined function"⟩,
   ⟨"E203", .typing, "Undefined type"⟩,
   ⟨"E204", .typing, "Wrong number of arguments"⟩,
   ⟨"E205", .typing, "Incorrect argument type"⟩,
   ⟨"E206", .typing, "Return type mismatch"⟩,
   ⟨"E207", .typing, "Cannot assign to immutable variable"⟩,
   ⟨"E208", .typing, "Duplicate definition"⟩,
   ⟨"E209", .typing, "Invalid field access"⟩,
   ⟨"E211", .typing, "Condition must be boolean"⟩,
   ⟨"E212", .typing, "Binary operation type error"⟩,
   ⟨"E213", .typing, "Unary operation type error"⟩,
   ⟨"E215", .typing, "Field not found"⟩,
   ⟨"E216", .typing, "Cannot perform compound assignment on immutable variable"⟩,
   ⟨"E217", .typing, "Invalid assignment target"⟩,
   ⟨"E218", .typing, "Type annotation required"⟩,
   ⟨"E219", .typing, "Incompatible types in assignment"⟩,
   ⟨"E220", .typing, "Function call not allowed in global initializer"⟩,
   ⟨"E301", .signal, "Duplicate signal declaration"⟩,
   ⟨"E302", .signal, "Undefined signal"⟩,
   ⟨"E303", .signal, "Wrong number of signal arguments"⟩,
   ⟨"E304", .signal, "Incorrect signal argument type"⟩,
   ⟨"E305", .lifecycle, "Invalid lifecycle function signature"⟩,
   ⟨"E400", .runtime, "Division by zero"⟩,
   ⟨"E402", .runtime, "Invalid node reference"⟩,
   ⟨"E403", .runtime, "Stack overflow"⟩,
   ⟨"E405", .runtime, "Node not found"⟩,
   ⟨"E413", .runtime, "Function not found"⟩,
   ⟨"E414", .runtime, "Invalid function call"⟩,
   ⟨"E415", .runtime, "Internal runtime fault"⟩,
   ⟨"E700", .structs, "Type does not support struct literals"⟩,
   ⟨"E701", .structs, "Missing field in struct literal"⟩,
   ⟨"E702", .structs, "Duplicate field in struct literal"⟩,
   ⟨"E703", .structs, "Unknown field in struct literal"⟩,
   ⟨"E704", .structs, "Struct literal field type mismatch"⟩,
   ⟨"E801", .exports, "Type cannot be exported"⟩,
   ⟨"E802", .exports, "Range hint requires a numeric property"⟩,
   ⟨"E803", .exports, "Enum hint requires an i32 or String property"⟩,
   ⟨"E804", .exports, "File hint requires a String property"⟩,
   ⟨"E805", .exports, "Invalid range hint arguments"⟩,
   ⟨"E806", .exports, "Unknown export hint"⟩,
   ⟨"E807", .exports, "Default value is not an enum member"⟩,
   ⟨"E808", .exports, "Empty hint value list"⟩,
   ⟨"E812", .exports, "Exported variable must be mutable"⟩,
   ⟨"E813", .exports, "Exported default must be a compile-time constant"⟩,
   ⟨"W001", .lint, "Unused variable"⟩,
   ⟨"W002", .lint, "Unreachable code"⟩,
   ⟨"W003", .lint, "Mutable variable is never reassigned"⟩]

/-- The entry of a code. -/
def describeCode (code : String) : Option CodeInfo := codeTable.find? fun c => c.code == code

/-- The codes of one family, or of all. -/
def listCodes (family : Option Family) : List CodeInfo :=
  match family with
  | some f => codeTable.filter fun c => c.family == f
  | none   => codeTable

end SceneScript
