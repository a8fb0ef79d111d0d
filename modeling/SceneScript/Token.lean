import SceneScript.Span
import SceneScript.Number.Binary64

/-!
# Token — the words of a script

A token is a name, a literal with its decoded value, a keyword or a symbol, with its spelling
and its place. The end of the script is not a token: where a reader runs out of tokens it
meets `none`, which `describe?` calls the end of file.
-/

namespace SceneScript

/-- Reserved words. -/
inductive Keyword where
  | fnKey | letKey | mutKey | ifKey | elseKey | whileKey | returnKey | selfKey | signalKey
  | trueKey | falseKey
deriving DecidableEq, Repr

namespace Keyword

/-- All reserved words. -/
def all : List Keyword :=
  [.fnKey, .letKey, .mutKey, .ifKey, .elseKey, .whileKey, .returnKey, .selfKey, .signalKey,
   .trueKey, .falseKey]

/-- The spelling of a reserved word. -/
def word : Keyword → String
  | .fnKey     => "fn"
  | .letKey    => "let"
  | .mutKey    => "mut"
  | .ifKey     => "if"
  | .elseKey   => "else"
  | .whileKey  => "while"
  | .returnKey => "return"
  | .selfKey   => "self"
  | .signalKey => "signal"
  | .trueKey   => "true"
  | .falseKey  => "false"

/-- The reserved word with a spelling. -/
def ofText? (t : Text) : Option Keyword := all.find? fun k => Text.ofString k.word == t

end Keyword

/-- Operators and punctuation. -/
inductive Symbol where
  | assign | plusAssign | minusAssign | starAssign | slashAssign
  | eq | neq | lt | lte | gt | gte
  | plus | minus | star | slash
  | and | or | not | arrow
  | lparen | rparen | lbrace | rbrace
  | comma | semicolon | colon | dot | atSign
deriving DecidableEq, Repr

namespace Symbol

/-- The symbol spelled by two characters. -/
def ofPair? : Char → Char → Option Symbol
  | '=', '=' => some .eq
  | '!', '=' => some .neq
  | '<', '=' => some .lte
  | '>', '=' => some .gte
  | '+', '=' => some .plusAssign
  | '-', '=' => some .minusAssign
  | '-', '>' => some .arrow
  | '*', '=' => some .starAssign
  | '/', '=' => some .slashAssign
  | '&', '&' => some .and
  | '|', '|' => some .or
  | _, _     => none

/-- The symbol spelled by one character. -/
def ofChar? : Char → Option Symbol
  | '=' => some .assign
  | '!' => some .not
  | '<' => some .lt
  | '>' => some .gt
  | '+' => some .plus
  | '-' => some .minus
  | '*' => some .star
  | '/' => some .slash
  | '(' => some .lparen
  | ')' => some .rparen
  | '\x7b' => some .lbrace
  | '\x7d' => some .rbrace
  | ',' => some .comma
  | ';' => some .semicolon
  | ':' => some .colon
  | '.' => some .dot
  | '@' => some .atSign
  | _   => none

/-- Whether a symbol separates or encloses, rather than operates. -/
def isPunctuation : Symbol → Bool
  | .lparen | .rparen | .lbrace | .rbrace | .comma | .semicolon | .colon | .dot | .atSign => true
  | _ => false

end Symbol

/-- What a token is; literals carry their values. -/
inductive TokenKind where
  | identifier
  | int (value : Nat)
  | float (value : Binary64)
  | string (value : Text)
  | keyword (k : Keyword)
  | symbol (s : Symbol)
deriving DecidableEq, Repr

namespace TokenKind

/-- The class of a token. -/
def category : TokenKind → String
  | .identifier => "identifier"
  | .int _      => "int-literal"
  | .float _    => "float-literal"
  | .string _   => "string-literal"
  | .keyword _  => "keyword"
  | .symbol s   => if s.isPunctuation then "punctuation" else "operator"

/-- The label of a token kind in listings. -/
def label : TokenKind → String
  | .identifier => "IDENTIFIER"
  | .int _      => "INT"
  | .float _    => "FLOAT"
  | .string _   => "STRING"
  | .keyword k  =>
      match k with
      | .fnKey     => "KW_FN"
      | .letKey    => "KW_LET"
      | .mutKey    => "KW_MUT"
      | .ifKey     => "KW_IF"
      | .elseKey   => "KW_ELSE"
      | .whileKey  => "KW_WHILE"
      | .returnKey => "KW_RETURN"
      | .selfKey   => "KW_SELF"
      | .signalKey => "KW_SIGNAL"
      | .trueKey   => "TRUE"
      | .falseKey  => "FALSE"
  | .symbol s   =>
      match s with
      | .assign      => "ASSIGN"
      | .plusAssign  => "PLUS_ASSIGN"
      | .minusAssign => "MINUS_ASSIGN"
      | .starAssign  => "STAR_ASSIGN"
      | .slashAssign => "SLASH_ASSIGN"
      | .eq          => "EQ"
      | .neq         => "NEQ"
      | .lt          => "LT"
      | .lte         => "LTE"
      | .gt          => "GT"
      | .gte         => "GTE"
      | .plus        => "PLUS"
      | .minus       => "MINUS"
      | .star        => "STAR"
      | .slash       => "SLASH"
      | .and         => "AND"
      | .or          => "OR"
      | .not         => "NOT"
      | .arrow       => "ARROW"
      | .lparen      => "LPAREN"
      | .rparen      => "RPAREN"
      | .lbrace      => "LBRACE"
      | .rbrace      => "RBRACE"
      | .comma       => "COMMA"
      | .semicolon   => "SEMICOLON"
      | .colon       => "COLON"
      | .dot         => "DOT"
      | .atSign      => "AT"

end TokenKind

/-- A token with its spelling and its place. -/
structure Token where
  kind   : TokenKind
  lexeme : Text
  span   : Span
deriving DecidableEq, Repr

namespace Token

/-- How messages name a token. -/
def describe (t : Token) : Text :=
  match t.kind with
  | .identifier       => "identifier '" ++ t.lexeme ++ "'"
  | .int _ | .float _ => "number '" ++ t.lexeme ++ "'"
  | .string _         => "string " ++ t.lexeme
  | _                 => "'" ++ t.lexeme ++ "'"

/-- How messages name what comes next: a token, or the end of file. -/
def describe? : Option Token → Text
  | none   => "end of file"
  | some t => t.describe

end Token

end SceneScript
