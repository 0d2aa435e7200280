import LiveTemplate.Text.Blank

/-!
# Interpolations

A text holds an interpolation where one of its lines has two opening braces and, behind them, two
closing ones.  The first such line counts; there the span runs from its first pair of opening
braces to its last pair of closing ones.
-/

namespace LiveTemplate

/-- The span of an interpolation: the trimmed expression, and the texts around the span. -/
structure Interpolation where
  expression : String
  before : String
  after : String
deriving DecidableEq, Repr, Inhabited

namespace Interpolation

/-- The text behind the last pair of closing braces, and the text before them. -/
def splitLastClose? : List Char → Option (List Char × List Char)
  | [] => none
  | c :: rest =>
    match splitLastClose? rest with
    | some (inner, after) => some (c :: inner, after)
    | none =>
      match c, rest with
      | '\x7d', '\x7d' :: after => some ([], after)
      | _, _ => none

/-- The span in a line: what is before the first pair of opening braces, between it and the last
pair of closing ones, and behind. -/
def splitLine? : List Char → Option (List Char × List Char × List Char)
  | '\x7b' :: '\x7b' :: rest =>
    (splitLastClose? rest).map fun (inner, after) => ([], inner, after)
  | c :: rest => (splitLine? rest).map fun (before, inner, after) => (c :: before, inner, after)
  | [] => none

/-- The span in a text: that of its first line that has one. -/
def split? : Nat → List Char → Option (List Char × List Char × List Char)
  | 0, _ => none
  | fuel + 1, cs =>
    let line := cs.takeWhile (· != '\n')
    let others := cs.dropWhile (· != '\n')
    match splitLine? line with
    | some (before, inner, after) => some (before, inner, after ++ others)
    | none =>
      match others with
      | [] => none
      | newline :: others =>
        (split? fuel others).map fun (before, inner, after) =>
          (line ++ newline :: before, inner, after)

/-- The first interpolation of a text. -/
def find? (text : String) : Option Interpolation :=
  let cs := text.toList
  (split? (cs.length + 1) cs).map fun (before, inner, after) =>
    ⟨String.ofList (Text.trimChars inner), String.ofList before, String.ofList after⟩

/-- The text with a value in place of the span. -/
def render (interpolation : Interpolation) (value : String) : String :=
  interpolation.before ++ value ++ interpolation.after

end Interpolation

end LiveTemplate
