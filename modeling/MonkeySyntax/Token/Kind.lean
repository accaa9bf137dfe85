/-!
# Kinds of tokens

A `Kind` is the category of a token.  Each kind has a name, under which it is listed, and
a display text, under which a diagnostic speaks of it: the symbol itself for an operator
or a delimiter, the name for every other kind.  `Kind.ofWord` tells the keywords from the
identifiers, `Kind.ofSymbol` and `Kind.ofPair` classify the symbols of one and of two
characters.
-/

namespace MonkeySyntax

/-- The category of a token. -/
inductive Kind where
  /-- A character that starts no other token. -/
  | illegal
  /-- The end of the source, of empty text. -/
  | endOfInput
  | identifier
  | integer
  | assign
  | plus
  | minus
  | bang
  | asterisk
  | slash
  | less
  | greater
  | equal
  | notEqual
  | comma
  | semicolon
  | leftParen
  | rightParen
  | leftBrace
  | rightBrace
  | functionWord
  | letWord
  | trueWord
  | falseWord
  | ifWord
  | elseWord
  | returnWord
deriving DecidableEq, Repr, Inhabited

namespace Kind

/-- Every kind, in the order of their declaration. -/
def all : List Kind :=
  [illegal, endOfInput, identifier, integer, assign, plus, minus, bang, asterisk, slash,
    less, greater, equal, notEqual, comma, semicolon, leftParen, rightParen, leftBrace,
    rightBrace, functionWord, letWord, trueWord, falseWord, ifWord, elseWord, returnWord]

/-- The name under which a kind is listed. -/
def name : Kind → String
  | illegal => "ILLEGAL"
  | endOfInput => "EOF"
  | identifier => "IDENT"
  | integer => "INT"
  | assign => "ASSIGN"
  | plus => "PLUS"
  | minus => "MINUS"
  | bang => "BANG"
  | asterisk => "ASTERISK"
  | slash => "SLASH"
  | less => "LT"
  | greater => "GT"
  | equal => "EQ"
  | notEqual => "NOT_EQ"
  | comma => "COMMA"
  | semicolon => "SEMICOLON"
  | leftParen => "LPAREN"
  | rightParen => "RPAREN"
  | leftBrace => "LBRACE"
  | rightBrace => "RBRACE"
  | functionWord => "FUNCTION"
  | letWord => "LET"
  | trueWord => "TRUE"
  | falseWord => "FALSE"
  | ifWord => "IF"
  | elseWord => "ELSE"
  | returnWord => "RETURN"

/-- The text that stands for a kind in a diagnostic: the symbol of an operator or a
delimiter, and the name of any other kind. -/
def display : Kind → String
  | assign => "="
  | plus => "+"
  | minus => "-"
  | bang => "!"
  | asterisk => "*"
  | slash => "/"
  | less => "<"
  | greater => ">"
  | equal => "=="
  | notEqual => "!="
  | comma => ","
  | semicolon => ";"
  | leftParen => "("
  | rightParen => ")"
  | leftBrace => "\x7b"
  | rightBrace => "\x7d"
  | k => k.name

/-- The kind listed under a name. -/
def ofName? (text : String) : Option Kind :=
  all.find? (fun k => k.name == text)

/-- The kind displayed as a text. -/
def ofDisplay? (text : String) : Option Kind :=
  all.find? (fun k => k.display == text)

/-- The kind of a word: a keyword's own kind, and `identifier` for any other word.
Keywords are written in lower case. -/
def ofWord : String → Kind
  | "function" => functionWord
  | "let" => letWord
  | "true" => trueWord
  | "false" => falseWord
  | "if" => ifWord
  | "else" => elseWord
  | "return" => returnWord
  | _ => identifier

/-- The kind of a symbol of one character, `illegal` for a character that is no symbol. -/
def ofSymbol : Char → Kind
  | '=' => assign
  | '+' => plus
  | '-' => minus
  | '!' => bang
  | '*' => asterisk
  | '/' => slash
  | '<' => less
  | '>' => greater
  | ',' => comma
  | ';' => semicolon
  | '(' => leftParen
  | ')' => rightParen
  | '\x7b' => leftBrace
  | '\x7d' => rightBrace
  | _ => illegal

/-- The kind of a symbol of two characters. -/
def ofPair : Char → Char → Option Kind
  | '=', '=' => some equal
  | '!', '=' => some notEqual
  | _, _ => none

end Kind

end MonkeySyntax
