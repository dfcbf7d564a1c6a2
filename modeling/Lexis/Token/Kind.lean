/-!
# Kinds of tokens

A token is a name, a keyword, a literal, a symbol, the end of the input, or a character that fits
nothing. Keywords and symbols are closed sets with one spelling each. A symbol of two characters
extends one of a single character (`Symbol.extend?`), and no symbol is longer.
-/

namespace Lexis

/-- Reserved words. -/
inductive Keyword where
  | function
  | letKey
  | trueKey
  | falseKey
  | ifKey
  | elseKey
  | returnKey
  | forKey
deriving DecidableEq, Repr

namespace Keyword

/-- How a reserved word is spelled. -/
def spelling : Keyword → String
  | function => "fn"
  | letKey => "let"
  | trueKey => "true"
  | falseKey => "false"
  | ifKey => "if"
  | elseKey => "else"
  | returnKey => "return"
  | forKey => "for"

/-- The label of a reserved word in a listing of tokens. -/
def label : Keyword → String
  | function => "FUNCTION"
  | letKey => "LET"
  | trueKey => "TRUE"
  | falseKey => "FALSE"
  | ifKey => "IF"
  | elseKey => "ELSE"
  | returnKey => "RETURN"
  | forKey => "FOR"

/-- All reserved words. -/
def all : List Keyword :=
  [function, letKey, trueKey, falseKey, ifKey, elseKey, returnKey, forKey]

/-- The reserved word with the given spelling. -/
def ofSpelling? (word : String) : Option Keyword :=
  all.find? (·.spelling == word)

end Keyword

/-- Operators and delimiters. -/
inductive Symbol where
  | assign
  | plus
  | minus
  | bang
  | star
  | slash
  | percent
  | power
  | increment
  | decrement
  | plusAssign
  | minusAssign
  | starAssign
  | slashAssign
  | less
  | lessEqual
  | greater
  | greaterEqual
  | equal
  | notEqual
  | comma
  | semicolon
  | colon
  | period
  | leftParen
  | rightParen
  | leftBrace
  | rightBrace
  | leftBracket
  | rightBracket
deriving DecidableEq, Repr

namespace Symbol

/-- How a symbol is spelled; also its label in a listing of tokens. -/
def text : Symbol → String
  | assign => "="
  | plus => "+"
  | minus => "-"
  | bang => "!"
  | star => "*"
  | slash => "/"
  | percent => "%"
  | power => "**"
  | increment => "++"
  | decrement => "--"
  | plusAssign => "+="
  | minusAssign => "-="
  | starAssign => "*="
  | slashAssign => "/="
  | less => "<"
  | lessEqual => "<="
  | greater => ">"
  | greaterEqual => ">="
  | equal => "=="
  | notEqual => "!="
  | comma => ","
  | semicolon => ";"
  | colon => ":"
  | period => "."
  | leftParen => "("
  | rightParen => ")"
  | leftBrace => "\x7b"
  | rightBrace => "\x7d"
  | leftBracket => "["
  | rightBracket => "]"

/-- The symbol that a single character spells. -/
def ofChar? (c : Char) : Option Symbol :=
  if c = '=' then some assign
  else if c = '+' then some plus
  else if c = '-' then some minus
  else if c = '!' then some bang
  else if c = '*' then some star
  else if c = '/' then some slash
  else if c = '%' then some percent
  else if c = '<' then some less
  else if c = '>' then some greater
  else if c = ',' then some comma
  else if c = ';' then some semicolon
  else if c = ':' then some colon
  else if c = '.' then some period
  else if c = '(' then some leftParen
  else if c = ')' then some rightParen
  else if c = '\x7b' then some leftBrace
  else if c = '\x7d' then some rightBrace
  else if c = '[' then some leftBracket
  else if c = ']' then some rightBracket
  else none

/-- The longer symbol that a further character makes of a symbol. -/
def extend? : Symbol → Char → Option Symbol
  | assign, '=' => some equal
  | bang, '=' => some notEqual
  | less, '=' => some lessEqual
  | greater, '=' => some greaterEqual
  | slash, '=' => some slashAssign
  | plus, '+' => some increment
  | plus, '=' => some plusAssign
  | minus, '-' => some decrement
  | minus, '=' => some minusAssign
  | star, '*' => some power
  | star, '=' => some starAssign
  | _, _ => none

end Symbol

/-- What a token is. -/
inductive Kind where
  /-- A character that starts no token. -/
  | illegal
  /-- The end of the input. -/
  | eof
  /-- A name. -/
  | ident
  /-- A whole number. -/
  | int
  /-- A number with a fraction. -/
  | float
  /-- Text between quotation marks. -/
  | string
  /-- A command between backticks. -/
  | command
  /-- An operator or a delimiter. -/
  | symbol (s : Symbol)
  /-- A reserved word. -/
  | keyword (k : Keyword)
deriving DecidableEq, Repr

namespace Kind

/-- The label of a kind in a listing of tokens. -/
def label : Kind → String
  | illegal => "ILLEGAL"
  | eof => "EOF"
  | ident => "IDENT"
  | int => "INT"
  | float => "FLOAT"
  | string => "STRING"
  | command => "`"
  | symbol s => s.text
  | keyword k => k.label

/-- Whether the kind is a reserved word. -/
def isKeyword : Kind → Bool
  | keyword _ => true
  | _ => false

/-- Whether tokens of this kind differ in their literal: names, numbers, strings and commands. -/
def isLiteral : Kind → Bool
  | ident | int | float | string | command => true
  | _ => false

/-- The kind of a word: a reserved word, or a name like any other. -/
def ofWord (word : String) : Kind :=
  match Keyword.ofSpelling? word with
  | some k => keyword k
  | none => ident

end Kind

end Lexis
