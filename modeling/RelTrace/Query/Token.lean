import RelTrace.Query.Span

/-!
# Tokens

A query is made of one-character symbols and of identifiers, which are maximal runs of letters,
digits and a few signs. All other characters only separate. An identifier does not begin with an
underscore: there the underscore is a symbol.

## Main definitions

* `Token`: a kind, a text and the position of its first character.
* `tokenize`: the tokens of a query.
-/

namespace RelTrace

/-- The kinds of tokens. -/
inductive Token.Kind where
  | projection
  | selection
  | union
  | join
  | leftParen
  | rightParen
  | leftBracket
  | rightBracket
  | leftBrace
  | rightBrace
  | underscore
  | comma
  | identifier
deriving DecidableEq

/-- A token with its place in the query, counted in characters. -/
structure Token where
  kind : Token.Kind
  text : String
  position : Nat
deriving DecidableEq

namespace Token

/-- The kind of a one-character symbol. -/
def Kind.ofSymbol? : Char → Option Kind
  | 'π' => some projection
  | 'σ' => some selection
  | '∪' => some union
  | '⋈' => some join
  | '(' => some leftParen
  | ')' => some rightParen
  | '[' => some leftBracket
  | ']' => some rightBracket
  | '{' => some leftBrace
  | '}' => some rightBrace
  | '_' => some underscore
  | ',' => some comma
  | _ => none

/-- The character of a kind of symbol. -/
def Kind.symbol? : Kind → Option Char
  | projection => some 'π'
  | selection => some 'σ'
  | union => some '∪'
  | join => some '⋈'
  | leftParen => some '('
  | rightParen => some ')'
  | leftBracket => some '['
  | rightBracket => some ']'
  | leftBrace => some '{'
  | rightBrace => some '}'
  | underscore => some '_'
  | comma => some ','
  | identifier => none

/-- How messages name a kind of token. -/
def Kind.describe (k : Kind) : String :=
  match k.symbol? with
  | some c => String.ofList ['\'', c, '\'']
  | none => "identifier"

/-- The position just past the token. -/
def stop (t : Token) : Nat := t.position + t.text.length

/-- The characters of the token. -/
def span (t : Token) : Span := ⟨t.position, t.stop⟩

/-- The characters of identifiers: ASCII letters and digits, and the signs of comparisons and
decimals. -/
def isIdentifierChar (c : Char) : Bool :=
  c.isAlphanum || c == '_' || c == '<' || c == '>' || c == '=' || c == '!' || c == '.'

/-- The identifier that ends before a position, given in reverse, unless it is empty. -/
def ofRun (position : Nat) (run : List Char) : List Token :=
  if run.isEmpty then []
  else [⟨.identifier, String.ofList run.reverse, position - run.length⟩]

/-- The tokens from a position on. The run holds, in reverse, the identifier that may go on
there. -/
def scan (position : Nat) (run : List Char) : List Char → List Token
  | [] => ofRun position run
  | c :: cs =>
    if isIdentifierChar c && !(run.isEmpty && c == '_') then scan (position + 1) (c :: run) cs
    else
      ofRun position run ++
        match Kind.ofSymbol? c with
        | some kind => ⟨kind, String.ofList [c], position⟩ :: scan (position + 1) [] cs
        | none => scan (position + 1) [] cs

end Token

/-- The tokens of a query, left to right. -/
def tokenize (query : String) : List Token := Token.scan 0 [] query.toList

end RelTrace
