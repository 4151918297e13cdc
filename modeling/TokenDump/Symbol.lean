/-!
# Symbols

The language spells its eighteen symbols with fourteen punctuation characters. Fourteen of the
symbols are one character long; the other four are one of `!`, `=`, `>`, `<` and a `=` behind it.

`Symbol.chars` is the spelling. `Symbol.ofChar?` and `Symbol.ofPair?` go the other way, for one
character and for two.
-/

namespace TokenDump

/-- A symbol of the language. -/
inductive Symbol where
  | leftParen
  | rightParen
  | leftBrace
  | rightBrace
  | comma
  | dot
  | minus
  | plus
  | semicolon
  | star
  | bang
  | bangEqual
  | equal
  | equalEqual
  | greater
  | greaterEqual
  | less
  | lessEqual
deriving DecidableEq, Repr

namespace Symbol

/-- Every symbol, in the order in which they are declared. -/
def all : List Symbol :=
  [leftParen, rightParen, leftBrace, rightBrace, comma, dot, minus, plus, semicolon, star,
    bang, bangEqual, equal, equalEqual, greater, greaterEqual, less, lessEqual]

/-- The characters that spell a symbol. -/
def chars : Symbol → List Char
  | leftParen => ['(']
  | rightParen => [')']
  | leftBrace => ['{']
  | rightBrace => ['}']
  | comma => [',']
  | dot => ['.']
  | minus => ['-']
  | plus => ['+']
  | semicolon => [';']
  | star => ['*']
  | bang => ['!']
  | bangEqual => ['!', '=']
  | equal => ['=']
  | equalEqual => ['=', '=']
  | greater => ['>']
  | greaterEqual => ['>', '=']
  | less => ['<']
  | lessEqual => ['<', '=']

/-- The spelling of a symbol as a string. -/
def lexeme (symbol : Symbol) : String :=
  String.ofList symbol.chars

/-- The name under which a symbol is listed. -/
def name : Symbol → String
  | leftParen => "LEFT_PAREN"
  | rightParen => "RIGHT_PAREN"
  | leftBrace => "LEFT_BRACE"
  | rightBrace => "RIGHT_BRACE"
  | comma => "COMMA"
  | dot => "DOT"
  | minus => "MINUS"
  | plus => "PLUS"
  | semicolon => "SEMICOLON"
  | star => "STAR"
  | bang => "BANG"
  | bangEqual => "BANG_EQUAL"
  | equal => "EQUAL"
  | equalEqual => "EQUAL_EQUAL"
  | greater => "GREATER"
  | greaterEqual => "GREATER_EQUAL"
  | less => "LESS"
  | lessEqual => "LESS_EQUAL"

/-- The symbol that a single character spells, if it spells one. -/
def ofChar? : Char → Option Symbol
  | '(' => some leftParen
  | ')' => some rightParen
  | '{' => some leftBrace
  | '}' => some rightBrace
  | ',' => some comma
  | '.' => some dot
  | '-' => some minus
  | '+' => some plus
  | ';' => some semicolon
  | '*' => some star
  | '!' => some bang
  | '=' => some equal
  | '>' => some greater
  | '<' => some less
  | _ => none

/-- The symbol that two adjacent characters spell together, if they spell one. -/
def ofPair? : Char → Char → Option Symbol
  | '!', '=' => some bangEqual
  | '=', '=' => some equalEqual
  | '>', '=' => some greaterEqual
  | '<', '=' => some lessEqual
  | _, _ => none

theorem mem_all (symbol : Symbol) : symbol ∈ all := by
  cases symbol <;> decide

theorem all_nodup : all.Nodup := by
  decide

@[simp] theorem lexeme_toList (symbol : Symbol) : symbol.lexeme.toList = symbol.chars :=
  String.toList_ofList

/-- A character spells the symbol whose whole spelling it is, and no other. -/
theorem ofChar?_eq_some_iff {c : Char} {symbol : Symbol} :
    ofChar? c = some symbol ↔ symbol.chars = [c] := by
  constructor
  · intro found
    unfold ofChar? at found
    split at found <;> cases found <;> rfl
  · intro spelled
    cases symbol <;> cases spelled <;> rfl

/-- Two characters spell the symbol whose whole spelling they are, and no other. -/
theorem ofPair?_eq_some_iff {c d : Char} {symbol : Symbol} :
    ofPair? c d = some symbol ↔ symbol.chars = [c, d] := by
  constructor
  · intro found
    unfold ofPair? at found
    split at found <;> cases found <;> rfl
  · intro spelled
    cases symbol <;> cases spelled <;> rfl

end Symbol

end TokenDump
