import TokenDump.Symbol
import TokenDump.Utf8

/-!
# Tokens

A token is a symbol at a line, or the mark that closes every token list. Its text is the name of
its kind, its lexeme and the word `null`, with a blank between them; the mark has an empty lexeme,
so its text holds two blanks in a row. A listing shows one token a line.
-/

namespace TokenDump

/-- What a token is. -/
inductive Token.Kind where
  | symbol (symbol : Symbol)
  | endOfText
deriving DecidableEq, Repr

/-- A token, as it stands in the source. -/
structure Token where
  kind : Token.Kind
  lexeme : String
  line : Nat
deriving DecidableEq, Repr

namespace Token

/-- Every kind: the symbols in their order, then the closing mark. -/
def Kind.all : List Kind :=
  Symbol.all.map .symbol ++ [.endOfText]

/-- The name that a kind has in listings. -/
def Kind.name : Kind → String
  | .symbol s => s.name
  | .endOfText => "EOF"

/-- The token of a symbol. -/
def ofSymbol (symbol : Symbol) (line : Nat) : Token :=
  ⟨.symbol symbol, symbol.lexeme, line⟩

/-- The token that closes a token list. -/
def endOfText (line : Nat) : Token :=
  ⟨.endOfText, "", line⟩

/-- How a token is shown. No token carries a value yet, and `null` stands in its place. -/
def text (token : Token) : String :=
  token.kind.name ++ " " ++ token.lexeme ++ " null"

/-- The line that shows a token. -/
def row (token : Token) : List UInt8 :=
  Utf8.encode (token.text.toList ++ ['\n'])

/-- The rows of some tokens, one after another. -/
def listing (tokens : List Token) : List UInt8 :=
  tokens.flatMap row

@[simp] theorem listing_nil : listing [] = [] := rfl

@[simp] theorem listing_cons (token : Token) (tokens : List Token) :
    listing (token :: tokens) = token.row ++ listing tokens := by
  simp [listing]

@[simp] theorem listing_append (left right : List Token) :
    listing (left ++ right) = listing left ++ listing right := by
  simp [listing]

example : (ofSymbol .bangEqual 1).text = "BANG_EQUAL != null" := by decide +kernel
example : (endOfText 3).text = "EOF  null" := by decide +kernel

end Token

end TokenDump
