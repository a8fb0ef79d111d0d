import SceneScript.Ast.Parser
import SceneScript.Typing
import SceneScript.Lint
import SceneScript.Log

/-!
# Analysis — from text to a script that can run

The stages are lexing, parsing, checking and linting. Lexical errors end the analysis before
parsing and syntax errors before checking. Whatever is found is sorted, freed of repetitions
and cut to a maximal number; a script compiles when no error is found.
-/

namespace SceneScript

/-- How a script is analysed. -/
structure AnalysisOptions where
  filename       : Option String := none
  lint           : Option LintRules := some {}
  maxDiagnostics : Int := 200

/-- How far an analysis went. -/
inductive Reached where
  | lexing
  | parsing (program : Program Unit)
  | checking (program : Program Unit) (checked : Checked)

/-- What is known about a script. -/
structure Analysis where
  lexed   : Lexed
  reached : Reached
  found   : List Diagnostic
  kept    : List Diagnostic

namespace Analysis

/-- Whether no error was found. -/
def ok (a : Analysis) : Bool := !hasErrors a.found

/-- The program, if the text could be lexed. -/
def program? (a : Analysis) : Option (Program Unit) :=
  match a.reached with
  | .lexing       => none
  | .parsing p    => some p
  | .checking p _ => some p

/-- The result of checking, if the text could be parsed. -/
def checked? (a : Analysis) : Option Checked :=
  match a.reached with
  | .checking _ c => some c
  | _             => none

/-- The number of tokens, the end of the file included. -/
def tokenCount (a : Analysis) : Nat := a.lexed.tokens.length + 1

/-- The events that an analysis logs: one pair for every stage, inside one for the whole. -/
def log (a : Analysis) (options : AnalysisOptions) (parent : Logger) : List LogEvent :=
  let l := parent.child "compile"
  let whole := "compile " ++ options.filename.getD "<source>"
  let stages : List String :=
    match a.reached with
    | .lexing       => ["lex"]
    | .parsing _    => ["lex", "parse"]
    | .checking _ _ => ["lex", "parse", "check"] ++ (if options.lint.isSome then ["lint"] else [])
  l.begin whole ++ stages.flatMap l.timed ++
    l.finish whole (some (Json.obj [("diagnostics", Json.int a.found.length)]))

end Analysis

/-- Analyses a script. -/
def analyze (source : Text) (options : AnalysisOptions) : Analysis :=
  let lexed := tokenize source false
  let conclude (reached : Reached) (collected : List Diagnostic) : Analysis :=
    let found := dedupeDiagnostics collected
    ⟨lexed, reached, found, capDiagnostics found options.maxDiagnostics⟩
  if !lexed.errors.isEmpty then conclude .lexing (lexed.errors.map LexError.diagnostic)
  else
    let parsed := parseTokens lexed.tokens lexed.finish
    if hasErrors parsed.diagnostics then conclude (.parsing parsed.program) parsed.diagnostics
    else
      let checked := checkProgram parsed.program
      let warnings :=
        match options.lint with
        | some rules => lint rules parsed.program checked.symbols
        | none       => []
      conclude (.checking parsed.program checked)
        (parsed.diagnostics ++ checked.diagnostics ++ warnings)

/-- A script that can run. -/
structure Script where
  filename : Option String
  checked  : Checked

/-- A compiled script with the warnings about it. -/
structure Compiled where
  script   : Script
  warnings : List Diagnostic

/-- The script of an analysis, or everything that was found. -/
def Analysis.compiled (a : Analysis) (filename : Option String) :
    Except (List Diagnostic) Compiled :=
  match a.ok, a.reached with
  | true, .checking _ c => .ok ⟨⟨filename, c⟩, a.kept.filter fun d => !d.isError⟩
  | _, _                => .error a.kept

/-- Compiles a script. -/
def compile (source : Text) (options : AnalysisOptions) : Except (List Diagnostic) Compiled :=
  (analyze source options).compiled options.filename

end SceneScript
