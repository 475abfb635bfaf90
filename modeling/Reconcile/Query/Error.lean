import Reconcile.Text.Utf8

namespace Reconcile.Query

inductive Reason
  | noRoot
  | unexpected (c : Char)
  | expectedName
  | openBracket
  | expectedSeparator
  | expectedItem
  | script
  | expected (c : Char)
  | expectedFilterName
  | expectedOperator
  | expectedLiteral
  | openQuote
  | expectedDigits
  | sliceStep
  | indexTooLarge
  | indexTooSmall
deriving DecidableEq, Repr

def Reason.message : Reason → String
  | .noRoot => "path must start with `$`"
  | .unexpected c => "unexpected `" ++ c.toString ++ "`"
  | .expectedName => "expected member name"
  | .openBracket => "path cannot end inside `[`"
  | .expectedSeparator => "expected `,` or `]`"
  | .expectedItem => "expected quoted name, index, slice or `*`"
  | .script => "script expressions are not supported"
  | .expected c => "expected `" ++ c.toString ++ "`"
  | .expectedFilterName => "expected quoted member name in filter"
  | .expectedOperator => "expected `)` or a comparison operator"
  | .expectedLiteral => "expected a string, number, boolean or null literal"
  | .openQuote => "unterminated quoted name"
  | .expectedDigits => "expected digits after `-`"
  | .sliceStep => "slice steps are not supported"
  | .indexTooLarge => "invalid index: number too large to fit in target type"
  | .indexTooSmall => "invalid index: number too small to fit in target type"

structure Error where
  input : String
  offset : Nat
  reason : Reason
deriving DecidableEq, Repr

def Error.message (e : Error) : String :=
  "invalid path query `" ++ e.input ++ "` at byte " ++ e.offset.repr ++ ": " ++ e.reason.message

structure Stop where
  reason : Reason
  rest : List Char

def Stop.toError (input : List Char) (stop : Stop) : Error where
  input := .ofList input
  offset := (Text.Utf8.encode input).length - (Text.Utf8.encode stop.rest).length
  reason := stop.reason

end Reconcile.Query
