import Crossing.Yaml.Tag

/-!
# Tokens of a YAML text

A YAML text is read in two steps: characters to tokens, tokens to events. This module has the
tokens, the ways a text can be malformed, and `Partial`, a list that may end because the text was
malformed after it. Both steps produce a `Partial`: what was read before the flaw stays readable.
-/

namespace Crossing.Yaml

/-- Why a text is not well-formed YAML. -/
inductive Malformed
  | controlCharacter
  | unexpectedCharacter
  | missingColon
  | misplacedEntry
  | misplacedKey
  | misplacedValue
  | unknownDirective
  | directiveSyntax
  | anchorName
  | tagSyntax
  | tagEscape
  | blockScalarHeader
  | tabIndentation
  | documentMarkInScalar
  | unclosedScalar
  | unknownEscape
  | badEscape
  | unexpectedColon
  | documentStartExpected
  | duplicateDirective
  | incompatibleVersion
  | undefinedTagHandle
  | nodeExpected
  | entryExpected
  | keyExpected
  | separatorExpected
  | unknownAnchor
  | tooLong
  deriving DecidableEq, Repr

/-- The reason in words. -/
def Malformed.message : Malformed → String
  | controlCharacter => "control characters are not allowed"
  | unexpectedCharacter => "found character that cannot start any token"
  | missingColon => "could not find expected ':'"
  | misplacedEntry => "block sequence entries are not allowed in this context"
  | misplacedKey => "mapping keys are not allowed in this context"
  | misplacedValue => "mapping values are not allowed in this context"
  | unknownDirective => "found unknown directive name"
  | directiveSyntax => "found an ill-formed directive"
  | anchorName => "did not find expected alphabetic or numeric character"
  | tagSyntax => "found an ill-formed tag"
  | tagEscape => "did not find URI escaped octet"
  | blockScalarHeader => "found an ill-formed block scalar header"
  | tabIndentation => "found a tab character where an indentation space is expected"
  | documentMarkInScalar => "found unexpected document indicator"
  | unclosedScalar => "found unexpected end of stream"
  | unknownEscape => "found unknown escape character"
  | badEscape => "found invalid Unicode character escape code"
  | unexpectedColon => "found unexpected ':'"
  | documentStartExpected => "did not find expected <document start>"
  | duplicateDirective => "found duplicate directive"
  | incompatibleVersion => "found incompatible YAML document"
  | undefinedTagHandle => "found undefined tag handle"
  | nodeExpected => "did not find expected node content"
  | entryExpected => "did not find expected '-' indicator"
  | keyExpected => "did not find expected key"
  | separatorExpected => "did not find expected ',' or closing bracket"
  | unknownAnchor => "unknown anchor"
  | tooLong => "the text was not read to its end"

/-- How a scalar is written. -/
inductive Style
  | plain
  | singleQuoted
  | doubleQuoted
  | literal
  | folded
  deriving DecidableEq, Repr

/-- The lexical units of a YAML text. -/
inductive Token
  | streamStart
  | streamEnd
  | version (major minor : Nat)
  | tagDirective (handle : String) (expansion : Tag)
  | documentStart
  | documentEnd
  | blockSequenceStart
  | blockMappingStart
  | blockEnd
  | flowSequenceStart
  | flowSequenceEnd
  | flowMappingStart
  | flowMappingEnd
  | blockEntry
  | flowEntry
  | key
  | value
  | alias (name : String)
  | anchor (name : String)
  | tag (handle : String) (suffix : Tag)
  | scalar (text : String) (style : Style)
  deriving DecidableEq, Repr

/-- A list read from a text, and the flaw that ended it, if one did. -/
structure Partial (α : Type) where
  items : List α
  flaw : Option Malformed
  deriving Repr

end Crossing.Yaml
