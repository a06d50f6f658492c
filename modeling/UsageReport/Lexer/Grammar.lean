/-
# The token grammar

The tokens of a C-like language, each kind of text with the patterns of its tokens.  The
order of the rules decides between rules that match the same text: keywords stand before
identifiers, so a keyword is never an identifier.  No other two kinds share a text.

The grammar is lexical only.  Block comments follow their pattern to the letter: between the
delimiters stand characters other than a star, and pairs of a star and a character other than
a slash.  A run of stars before the closing slash is therefore read in pairs.
-/
import UsageReport.Lexer.Pattern

namespace UsageReport

/-- What a piece of text is, as far as a lexer can tell. -/
inductive TextKind where
  | keyword
  | identifier
  | operator
  | punctuation
  | numericLiteral
  | stringLiteral
  | comment
  | whitespace
  /-- Text that is no token. -/
  | text
deriving DecidableEq

namespace Lexer

/-- Texts that a pattern describes are of a kind. -/
structure Rule where
  kind : TextKind
  pattern : Pattern
deriving DecidableEq

/-! ## 1. Character sets -/

def blank : CharSet := .anyOf [' ', '\t', '\r', '\n']

def digit : CharSet := .within [('0', '9')]

def letter : CharSet := .within [('a', 'z'), ('A', 'Z'), ('_', '_')]

def letterOrDigit : CharSet := .within [('a', 'z'), ('A', 'Z'), ('0', '9'), ('_', '_')]

/-- Any character that does not end a line. -/
def inLine : CharSet := .noneOf ['\n']

/-! ## 2. Patterns -/

def whitespace : Pattern := .repeated (.one blank)

def lineComment : Pattern := .seq (.text ['/', '/']) (.many (.one inLine))

/-- One step inside a block comment. -/
def commentStep : Pattern :=
  .either (.one (.noneOf ['*'])) (.seq (.char '*') (.one (.noneOf ['/'])))

def blockComment : Pattern :=
  .seq (.text ['/', '*']) (.seq (.many commentStep) (.text ['*', '/']))

/-- A literal between two equal quotes; a backslash takes the next character of the line with
it. -/
def quoted (quote : Char) : Pattern :=
  .seq (.char quote)
    (.seq (.many (.either (.one (.noneOf [quote, '\\'])) (.seq (.char '\\') (.one inLine))))
      (.char quote))

def number : Pattern :=
  .seq (.repeated (.one digit))
    (.seq (.optional (.seq (.char '.') (.repeated (.one digit))))
      (.seq
        (.optional (.seq (.one (.anyOf ['e', 'E']))
          (.seq (.optional (.one (.anyOf ['+', '-']))) (.repeated (.one digit)))))
        (.optional (.one (.anyOf ['f', 'F', 'd', 'D', 'm', 'M', 'l', 'L', 'u', 'U'])))))

def identifier : Pattern :=
  .seq (.optional (.char '@')) (.seq (.one letter) (.many (.one letterOrDigit)))

/-! ## 3. The rules -/

/-- The words that are keywords. -/
def keywords : List String :=
  ["abstract", "as", "base", "bool", "break", "case", "catch", "class", "const", "continue",
    "default", "delegate", "do", "double", "else", "enum", "event", "false", "for", "foreach",
    "if", "in", "int", "interface", "internal", "is", "namespace", "new", "null", "object",
    "operator", "out", "override", "partial", "private", "protected", "public", "readonly",
    "ref", "return", "sealed", "static", "string", "struct", "switch", "this", "throw", "true",
    "try", "using", "var", "virtual", "void", "while"]

/-- The characters that are punctuation, each one a token. -/
def punctuationMarks : List Char := ['\x7b', '\x7d', '[', ']', '(', ')', ';', ',', '.', ':']

/-- The operators of one character. -/
def plainOperators : List Char := ['+', '-', '*', '/', '%', '&', '|', '^', '~', '?']

/-- The operators of two characters that the other patterns do not give. -/
def doubleOperators : List String := ["=>", "&&", "||", "??", "++", "--"]

/-- All rules; of two that match the same text the earlier one counts. -/
def grammar : List Rule :=
  [⟨.whitespace, whitespace⟩, ⟨.comment, lineComment⟩, ⟨.comment, blockComment⟩] ++
    keywords.map (fun word => ⟨.keyword, .text word.toList⟩) ++
    [⟨.punctuation, .one (.anyOf punctuationMarks)⟩,
      ⟨.operator, .seq (.one (.anyOf ['=', '!', '<', '>'])) (.optional (.char '='))⟩,
      ⟨.operator, .one (.anyOf plainOperators)⟩] ++
    doubleOperators.map (fun op => ⟨.operator, .text op.toList⟩) ++
    [⟨.numericLiteral, number⟩, ⟨.stringLiteral, quoted '\x22'⟩, ⟨.stringLiteral, quoted '\x27'⟩,
      ⟨.identifier, identifier⟩]

end Lexer
end UsageReport
