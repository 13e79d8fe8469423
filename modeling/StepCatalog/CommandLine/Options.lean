import StepCatalog.Text.Digit

/-!
# Options of the command line

Options may be abbreviated as long as the beginning names only one of them, a value follows its option or an equals sign, and
options of one letter may be put together. Words that are neither options nor values are refused, but only when everything has been
read: a request for help that comes before is answered.
-/

namespace StepCatalog.CommandLine

open Text (of)

/-- The options. -/
inductive Switch where
  | help | index | line | complete | undefined | root | settings | verbose
  deriving DecidableEq, Repr

/-- Whether an option takes a value. -/
def Switch.takesValue : Switch → Bool
  | .line | .complete | .root | .settings => true
  | _ => false

/-- The spellings of the options. -/
def spellings : List (Text × Switch) :=
  [("-h", .help), ("--help", .help), ("--index", .index), ("--line", .line), ("--complete", .complete),
    ("--undefined", .undefined), ("--root", .root), ("--settings", .settings), ("-v", .verbose),
    ("--verbose", .verbose)].map fun (s, o) => (of s, o)

/-- What the options ask for. -/
structure Options where
  index : Bool := false
  line : Option Text := none
  complete : Option Text := none
  undefined : Bool := false
  root : Option Text := none
  settings : Option Text := none
  verbose : Bool := false
  deriving DecidableEq, Repr

/-- Why no options are given: help was asked for, or the command line is refused. -/
inductive Exit where
  | help
  | refused
  deriving DecidableEq, Repr

/-! ## Words -/

/-- What a word holds behind the option that it names. -/
inductive Attached where
  | nothing
  /-- Behind an equals sign. -/
  | assigned (value : Text)
  /-- Right behind the letter of the option. -/
  | joined (value : Text)
  deriving DecidableEq, Repr

/-- An option as a word of the command line names it: how it is spelled, and what else the word holds. -/
structure Named where
  spelling : Text
  switch : Switch
  attached : Attached
  deriving DecidableEq, Repr

/-- A word of the command line. -/
inductive Word where
  /-- Not an option: a value, or out of place. -/
  | plain
  | option (n : Named)
  /-- An option that there is not. -/
  | unknown
  /-- Two dashes: all words that follow are plain. -/
  | divider
  deriving DecidableEq, Repr

/-- A word cut at its first equals sign. -/
def cutValue (s : Text) : Text × Attached :=
  match s.dropWhile (· != '=') with
  | [] => (s, .nothing)
  | _ :: value => (s.takeWhile (· != '='), .assigned value)

/-- The options that a word may abbreviate: by the beginning of a long spelling or, if the word has a single dash, by a letter with
more behind it. -/
def abbreviated (s : Text) : List Named :=
  if s.startsWith (of "--") then
    let (lead, attached) := cutValue s
    (spellings.filter fun (spelling, _) => spelling.startsWith lead).map fun (spelling, o) => ⟨spelling, o, attached⟩
  else
    spellings.filterMap fun (spelling, o) =>
      if spelling = s.take 2 then some ⟨spelling, o, .joined (s.drop 2)⟩
      else if spelling.startsWith s then some ⟨spelling, o, .nothing⟩
      else none

/-- Digits, perhaps with a point among or in front of them, behind a minus sign. -/
def isNegativeNumber : Text → Bool
  | '-' :: s =>
    let s := if s.getLast? = some '\n' then s.dropLast else s
    (!s.isEmpty && s.all isDecimalDigit) ||
      (match s.dropWhile isDecimalDigit with
        | '.' :: rest => !rest.isEmpty && rest.all isDecimalDigit
        | _ => false)
  | _ => false

/-- What a word is, two dashes apart; an abbreviation of several options is refused. -/
def Word.ofText? (s : Text) : Except Exit Word :=
  if !s.startsWith ['-'] then .ok .plain
  else
    match spellings.lookup s with
    | some o => .ok (.option ⟨s, o, .nothing⟩)
    | none =>
      if s.length = 1 then .ok .plain
      else
        match cutValue s with
        | (spelling, .assigned value) =>
          match spellings.lookup spelling with
          | some o => .ok (.option ⟨spelling, o, .assigned value⟩)
          | none => ofAbbreviated
        | _ => ofAbbreviated
where
  /-- The word as an abbreviation. -/
  ofAbbreviated : Except Exit Word :=
    match abbreviated s with
    | [n] => .ok (.option n)
    | _ :: _ :: _ => .error .refused
    | [] => .ok (if isNegativeNumber s || s.contains ' ' then .plain else .unknown)

/-- What the words of a command line are. -/
def classify : List Text → Except Exit (List (Text × Word))
  | [] => .ok []
  | s :: rest =>
    if s = of "--" then .ok ((s, .divider) :: rest.map fun t => (t, .plain))
    else do
      let w ← Word.ofText? s
      return (s, w) :: (← classify rest)

/-! ## Options -/

/-- The options with one more of them. -/
def Options.set (o : Options) (switch : Switch) (value : Text) : Except Exit Options :=
  match switch with
  | .help => .error .help
  | .index => .ok { o with index := true }
  | .line => .ok { o with line := some value }
  | .complete => .ok { o with complete := some value }
  | .undefined => .ok { o with undefined := true }
  | .root => .ok { o with root := some value }
  | .settings => .ok { o with settings := some value }
  | .verbose => .ok { o with verbose := true }

/-- Options that a word gives, with their values, and whether the word goes on with something that is no option. -/
structure Given where
  options : List (Switch × Text)
  strays : Bool := false
  deriving DecidableEq, Repr

/-- The options of one letter that stand in a word behind a first one; none of them takes a value. -/
def cluster (first : Switch) : Text → Except Exit Given
  | [] => .ok ⟨[(first, [])], false⟩
  | c :: s =>
    if c = '-' || c = '=' then .error .refused
    else
      match spellings.lookup ['-', c] with
      | none => .ok ⟨[(first, [])], true⟩
      | some next => do
        let more ← cluster next s
        return { more with options := (first, []) :: more.options }

/-- The options that a word gives on its own; nothing, if the value of its option is the next word. -/
def Named.given? (n : Named) : Except Exit (Option Given) :=
  match n.attached, n.switch.takesValue with
  | .nothing, true => .ok none
  | .nothing, false => .ok (some ⟨[(n.switch, [])], false⟩)
  | .assigned value, true | .joined value, true => .ok (some ⟨[(n.switch, value)], false⟩)
  | .assigned _, false => .error .refused
  | .joined value, false => (cluster n.switch value).map some

/-- The options with several more of them. -/
def Options.setAll (o : Options) (given : List (Switch × Text)) : Except Exit Options :=
  given.foldlM (fun o (switch, value) => o.set switch value) o

/-- The options that words give, and whether there was a word out of place. -/
def collect : Options → Bool → List (Text × Word) → Except Exit (Options × Bool)
  | o, strays, [] => .ok (o, strays)
  | o, strays, (_, .option n) :: rest => do
    match ← n.given? with
    | some given => collect (← o.setAll given.options) (strays || given.strays) rest
    | none =>
      match rest with
      | (value, .plain) :: rest => collect (← o.set n.switch value) strays rest
      | _ => throw .refused
  | o, _, _ :: rest => collect o true rest

/-- The options of a command line. -/
def Options.ofWords (words : List Text) : Except Exit Options := do
  let (o, strays) ← collect {} false (← classify words)
  if strays then throw .refused else return o

/-- What help says. -/
def helpText : Text := of (String.intercalate "\n" [
  "usage: find-step [-h] [--index] [--line LINE] [--complete COMPLETE]",
  "                 [--undefined] [--root ROOT] [--settings SETTINGS] [-v]",
  "",
  "options:",
  "  -h, --help           show this help message and exit",
  "  --index",
  "  --line LINE",
  "  --complete COMPLETE",
  "  --undefined",
  "  --root ROOT",
  "  --settings SETTINGS",
  "  -v, --verbose",
  ""])

end StepCatalog.CommandLine
