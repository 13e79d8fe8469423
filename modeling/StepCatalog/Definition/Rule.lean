import StepCatalog.Regex.Reader
import StepCatalog.Settings

/-!
# What a step definition looks like

A step definition in a source file is a call: a keyword, an opening parenthesis, the body between two equal marks, and then a comma
or a closing parenthesis. A rule (`Rule`) says which keywords and marks count. The settings may replace either by a pattern of
their own; without such patterns the keywords are those of the languages in use and three generic words, and the marks are a slash
and the two quotation marks.
-/

namespace StepCatalog.Definition

open Regex (Node CharSet)
open Text (of)

/-- A rule: a pattern, and the numbers of the groups that hold the keyword, the opening mark and the body. -/
structure Rule where
  node : Node
  keywordGroup : Nat
  openingGroup : Nat
  bodyGroup : Nat
  deriving DecidableEq, Repr

/-- A definition found in a line: where it stands, and its keyword, opening mark and body as far as the pattern that matched has
them. -/
structure Found where
  start : Nat
  stop : Nat
  keyword? : Option Text
  opening? : Option Text
  body? : Option Text
  deriving DecidableEq, Repr

/-- The words that declare a step of no category. -/
def genericWords : List Text := [of "defineStep", of "Step", of "StepDefinition"]

/-! ## The rule of the languages -/

/-- A set of characters of a pattern in which letter case does not count. -/
def anyOf (negated : Bool) (items : List Regex.Item) : Node := .one (CharSet.ofItems .full false negated items)

/-- The keywords that declare a step, in order of preference. Without languages the empty word is the first of them. -/
def declaringWords (ls : List Gherkin.Language) : List Text :=
  match Gherkin.stepKeywords ls with
  | [] => [] :: genericWords
  | words => words ++ genericWords

/-- A blank. -/
def blankNode : Node := anyOf false [.category .blank false]

/-- Any character at all. -/
def anyNode : Node := anyOf false [.category .blank false, .category .blank true]

/-- What stands in front of the opening mark: the keyword, the parenthesis, blanks, and perhaps the letter of a raw string. -/
def headNodes (ls : List Gherkin.Language) : List Node := [
  .group (some 1) (.group (some 2) (Node.ofAlts ((declaringWords ls).map (Node.literal .full)))),
  Node.char .full '(',
  .repeated .lazy 0 none blankNode,
  .repeated .greedy 0 (some 1) (anyOf false ("rRuU".toList.map fun c => .code c.toNat))]

/-- The opening mark, the body, the mark again, and the end of the argument. -/
def bodyNodes : List Node := [
  .group (some 3) (.group (some 4) (anyOf false ("/\"'".toList.map fun c => .code c.toNat))),
  .group (some 5) (.repeated .lazy 0 none anyNode),
  .backref 3 .full,
  .repeated .greedy 0 none blankNode,
  anyOf false (",)".toList.map fun c => .code c.toNat)]

/-- The rule of languages. -/
def Rule.ofLanguages (ls : List Gherkin.Language) : Rule := ⟨Node.ofSeq (headNodes ls ++ bodyNodes), 1, 3, 5⟩

/-! ## Rules with patterns of the settings -/

/-- The pattern of the keywords that declare a step. -/
def keywordSource (ls : List Gherkin.Language) : Text :=
  '(' :: Gherkin.alternation (Gherkin.stepKeywords ls) ++ of "|defineStep|Step|StepDefinition)"

/-- A pattern put into parentheses, unless it begins with one. -/
def parenthesised (source : Text) : Text :=
  if source.startsWith ['('] then source else '(' :: source ++ [')']

/-- The pattern of a definition with given patterns of the keyword and of the opening mark. -/
def ruleSource (keyword opening : Text) : Text :=
  of "(?P<keyword>" ++ keyword ++ of ")\\(\\s*?[rRuU]?(?P<open>" ++ opening ++ of ")(?P<body>[\\s\\S]*?)(?P=open)\\s*[,)]"

/-- The rule that a pattern writes. -/
def Rule.ofSource? (source : Text) : Except Regex.Error Rule := do
  let (node, names) ← Node.ofTextNamed? source { ignoreCase := true }
  let number (name : String) := (names.lookup (of name)).getD 0
  return ⟨node, number "keyword", number "open", number "body"⟩

/-- A text that is given and not empty. -/
def given? : Option Text → Option Text
  | some [] => none
  | t => t

/-- The rule of settings. -/
def Rule.ofSettings? (s : Settings) : Except Regex.Error Rule :=
  match given? s.definitionKeyword, given? s.openingSymbol with
  | none, none => .ok (Rule.ofLanguages s.languages)
  | keyword, symbol =>
    let keyword := (keyword.map parenthesised).getD (keywordSource s.languages)
    let opening := (symbol.map fun s => of "([" ++ s ++ of "])").getD (of "([/\"'])")
    Rule.ofSource? (ruleSource keyword opening)

/-! ## Finding definitions -/

/-- The first definition in a line. -/
def Rule.find? (r : Rule) (line : Text) : Option Found :=
  (r.node.search? line).map fun m =>
    ⟨m.start, m.stop, m.group? r.keywordGroup, m.group? r.openingGroup, m.group? r.bodyGroup⟩

/-- A line with every custom parameter replaced by its value, one parameter after the other. -/
def applyParameters (ps : List CustomParameter) (line : Text) : Text :=
  ps.foldl (fun line p => line.replace p.parameter p.value) line

end StepCatalog.Definition
