import StepCatalog.Regex.Search
import StepCatalog.Text.Identifier

/-!
# Reading regular expressions

A pattern is read one character at a time (`Draft.feed`): the draft holds the tree built so far, the parentheses that are open,
and the mode, which says what the next character belongs to. Reading a pattern is a fold over its characters, so reading two
texts one after the other is reading the second from where the first ended.

Notation: `\d \s \w` and their opposites, `\b \B \A \Z`, sets in brackets, `* + ?` and `{m,n}` (also `{,n}`), each of them lazy with
a `?` or possessive with a `+` behind it, groups `(..)`, `(?:..)`, `(?P<name>..)`, `(?>..)`, references `\1` and `(?P=name)`, looks
`(?=..)`, `(?!..)`, `(?<=..)`, `(?<!..)`, choices by a group `(?(1)..|..)`, comments `(?#..)` and flags `(?i)`, `(?i:..)`. A brace that
opens no quantifier stands for itself.

Parentheses may be nested to any depth: the draft stands for a stack without a limit. How deep they are nested is measured
(`nesting`), for what a limited stack can read (`Stack`).
-/

namespace StepCatalog.Regex

/-- Why a pattern is refused. -/
inductive Error where
  /-- It is not a regular expression. -/
  | malformed
  /-- A quantifier counts beyond what a repetition may. -/
  | repetitionTooLarge
  /-- The numeral of a quantifier has too many digits to be read. -/
  | numeralTooLong
  /-- The whole pattern is declared both ASCII and Unicode. -/
  | clashingFlags
  deriving DecidableEq, Repr

/-- The least number of rounds that no quantifier may ask for. -/
def repetitionLimit : Nat := 4294967295

/-- The least number that no group may have. -/
def groupLimit : Nat := 1073741823

/-! ## The draft -/

/-- The flags in force at a place of the pattern. -/
structure Flags where
  ignoreCase : Bool := false
  multiline : Bool := false
  dotAll : Bool := false
  verbose : Bool := false
  ascii : Bool := false
  deriving DecidableEq, Repr

/-- The folding of letters under the flags. -/
def Flags.fold (f : Flags) : CaseFold := if f.ignoreCase then (if f.ascii then .ascii else .full) else .exact

/-- The flags with one of them, named by its letter, set to a value. -/
def Flags.set (value : Bool) (f : Flags) : Char → Flags
  | 'i' => { f with ignoreCase := value }
  | 'm' => { f with multiline := value }
  | 's' => { f with dotAll := value }
  | 'x' => { f with verbose := value }
  | 'a' => { f with ascii := value }
  | 'u' => { f with ascii := !value }
  | _ => f

/-- The letters of flags. -/
def isFlag (c : Char) : Bool := "aiLmstux".toList.contains c

/-- The letters of the flags that choose a kind of characters. -/
def isKindFlag (c : Char) : Bool := c == 'a' || c == 'u' || c == 'L'

/-- What an open parenthesis will become. -/
inductive Opening where
  | capture (index : Nat)
  | plain
  | atomic
  | ahead (negated : Bool)
  | behind (negated outermost : Bool)
  | cond (index : Nat)
  deriving DecidableEq, Repr

/-- The inside of a parenthesis, or the whole pattern: finished alternatives and the items of the current one, latest first. -/
structure Level where
  flags : Flags
  alternatives : List Node := []
  items : List Node := []
  deriving DecidableEq, Repr

/-- The current alternative. -/
def Level.current (l : Level) : Node := Node.ofSeq l.items.reverse

/-- The node of all alternatives. -/
def Level.node (l : Level) : Node := Node.ofAlts (l.current :: l.alternatives).reverse

/-- A set in brackets so far: its items, latest first. -/
structure SetDraft where
  negated : Bool := false
  items : List Item := []
  deriving DecidableEq, Repr

/-- Where inside the brackets the next character stands. -/
inductive SetStage where
  /-- Right behind the bracket. -/
  | opened
  /-- Where an item may begin. -/
  | member
  /-- Behind an item, which a dash may turn into the low end of a range. -/
  | after (item : Item)
  /-- Behind the dash. -/
  | dash (low : Item)
  deriving DecidableEq, Repr

/-- Where the character that an escape names will go: into the sequence, or into a set, perhaps as the high end of a range. -/
inductive Target where
  | sequence
  | set (draft : SetDraft) (low : Option Item)
  deriving DecidableEq, Repr

/-- What the next character belongs to. -/
inductive Mode where
  /-- A new item. -/
  | item
  /-- The mark behind a quantifier that makes it lazy or possessive, or a new item. -/
  | quantified (min : Nat) (max : Option Nat)
  /-- The inside of braces: the digits so far, latest first, and those behind the comma. -/
  | braces (lo : Text) (hi : Option Text)
  /-- Anything: the pattern is refused, unless a lone backslash ends it, which makes it malformed instead. -/
  | refused (e : Error)
  | refusedEscape (e : Error)
  /-- The character behind a backslash. -/
  | escape (target : Target)
  /-- One of `left` hexadecimal digits. -/
  | hex (target : Target) (left value : Nat)
  /-- Up to `left` more octal digits. -/
  | octal (target : Target) (left value : Nat)
  /-- More digits of a group's number. -/
  | reference (first : Nat) (second : Option Nat)
  | set (draft : SetDraft) (stage : SetStage)
  /-- Right behind `(`, `(?`, `(?P` and `(?<`. -/
  | paren
  | question
  | extension
  | lookBehind
  /-- Inside a name, its characters latest first. -/
  | groupName (name : Text)
  | referenceName (name : Text)
  | condName (name : Text)
  /-- Inside a comment in parentheses, or one that ends with the line. -/
  | comment
  | commentEscape
  | remark
  | remarkEscape
  /-- Inside flags: the letters switched on and off. -/
  | flagsOn (on : List Char)
  | flagsOff (on off : List Char)
  deriving DecidableEq, Repr

/-- A pattern read so far. -/
structure Draft where
  mode : Mode := .item
  level : Level
  /-- The levels around the current one, innermost first, each with what the parenthesis inside it will become. -/
  outer : List (Opening × Level) := []
  /-- The number of capturing groups opened so far. -/
  groupCount : Nat := 0
  names : List (Text × Nat) := []
  /-- The widths of the groups that are closed. -/
  widths : List (Nat × Width) := []
  /-- The number of groups that were open when the outermost look behind began. -/
  behindFrom : Option Nat := none
  /-- The numbers of groups that choices refer to, which must exist in the end. -/
  wanted : List Nat := []
  declaredAscii : Bool := false
  declaredUnicode : Bool := false
  /-- The flag under which no repetition is allowed. -/
  template : Bool := false
  /-- Something that is found wrong only when the whole pattern has been read. -/
  misfit : Bool := false
  deriving DecidableEq, Repr

namespace Draft

/-- The draft of the empty pattern. -/
def start (flags : Flags) : Draft := { level := { flags } }

/-- The draft with a further item. -/
def push (d : Draft) (n : Node) : Draft :=
  { d with mode := .item, level := { d.level with items := n :: d.level.items } }

/-- The draft with further characters that stand for themselves. -/
def pushCode (d : Draft) (n : Nat) : Draft := d.push (.one (CharSet.literal d.level.flags.fold false n))

/-- The draft with a further set of characters. -/
def pushSet (d : Draft) (negated : Bool) (items : List Item) : Draft :=
  d.push (.one (CharSet.ofItems d.level.flags.fold d.level.flags.ascii negated items))

/-- The draft inside a new parenthesis. -/
def enter (d : Draft) (o : Opening) (flags : Flags) : Draft :=
  { d with mode := .item, level := { flags }, outer := (o, d.level) :: d.outer }

/-- The draft inside a new capturing group. -/
def enterGroup (d : Draft) : Draft :=
  let d := { d with groupCount := d.groupCount + 1 }
  d.enter (.capture d.groupCount) d.level.flags

/-- The width of a group that is closed. -/
def groupWidth (d : Draft) (i : Nat) : Width := (d.widths.lookup i).getD ⟨0, some 0⟩

/-- Whether a group is closed. -/
def isClosed (d : Draft) (i : Nat) : Bool := (d.widths.lookup i).isSome

/-- Whether a group may be referred to, as far as looks behind are concerned: inside one, only closed groups from before it. -/
def reachesBehind (d : Draft) (i : Nat) : Bool :=
  match d.behindFrom with
  | none => true
  | some n => d.isClosed i && i ≤ n

/-- The draft with a reference to a closed group. -/
def pushReference (d : Draft) (i : Nat) : Except Error Draft :=
  if d.isClosed i && d.reachesBehind i then .ok (d.push (.backref i d.level.flags.fold)) else .error .malformed

/-- The draft behind a quantifier. There must be an item to repeat, and neither an anchor nor a repetition can be. -/
def quantify (d : Draft) (min : Nat) (max : Option Nat) : Except Error Draft :=
  match d.level.items with
  | [] | .anchor _ :: _ | .repeated _ _ _ _ :: _ => .error .malformed
  | _ :: _ => .ok { d with mode := .quantified min max, misfit := d.misfit || d.template }

/-- The draft with its last item repeated. -/
def repeatLast (d : Draft) (greed : Greed) (min : Nat) (max : Option Nat) : Draft :=
  match d.level.items with
  | [] => d
  | n :: items => { d with mode := .item, level := { d.level with items := .repeated greed min max n :: items } }

/-- The draft with the next alternative begun. A choice by a group has at most two. -/
def nextAlternative (d : Draft) : Except Error Draft :=
  match d.outer, d.level.alternatives with
  | (.cond _, _) :: _, _ :: _ => .error .malformed
  | _, _ =>
    .ok { d with level := { d.level with alternatives := d.level.current :: d.level.alternatives, items := [] } }

/-- The error of a pattern with a closing parenthesis too many. -/
def unbalanced (d : Draft) : Error := if d.declaredAscii && d.declaredUnicode then .clashingFlags else .malformed

/-- The least width that no look behind may have. -/
def behindLimit : Nat := 4294967296

/-- The draft behind the parenthesis that is closed. -/
def close (d : Draft) : Except Error Draft :=
  match d.outer with
  | [] => .error d.unbalanced
  | (o, level) :: outer =>
    let body := d.level.node
    let d' := { d with level, outer }
    .ok <| match o with
      | .capture i => { d' with widths := (i, body.width d.groupWidth) :: d.widths }.push (.group (some i) body)
      | .plain => d'.push (.group none body)
      | .atomic => d'.push (.atomic body)
      | .ahead negated => d'.push (.ahead negated body)
      | .behind negated outermost =>
        let w := body.width d.groupWidth
        { d' with
          behindFrom := if outermost then none else d.behindFrom
          misfit := d.misfit || w.hi != some w.lo || behindLimit ≤ w.lo }.push (.behind negated w.lo body)
      | .cond i =>
        match d.level.alternatives with
        | [] => d'.push (.cond i d.level.current .empty)
        | yes :: _ => d'.push (.cond i yes d.level.current)

/-! ## Names, numbers and flags -/

/-- The value of an octal digit. -/
def octalValue? (c : Char) : Option Nat := if '0' ≤ c && c ≤ '7' then some (c.toNat - 48) else none

/-- The value of the digits of a numeral in which single underscores may stand between digits. -/
def groupedNumeral? (s : Text) : Option Nat :=
  let parts := Text.splitOn '_' s
  let digits := parts.flatten
  if parts.all (fun p => !p.isEmpty && p.all isDecimalDigit) && digits.length ≤ maxNumeralDigits then
    some (numeralValue digits)
  else none

/-- The number of a group as a choice may write it: with blanks around it and a sign in front. -/
def groupNumber? (name : Text) : Option Nat :=
  match Text.trim name with
  | '+' :: s => groupedNumeral? s
  | s => groupedNumeral? s

/-- The draft inside a group with a name. -/
def enterNamed (d : Draft) (name : Text) : Except Error Draft :=
  if isIdentifier name && (d.names.lookup name).isNone then
    let d := d.enterGroup
    .ok { d with names := (name, d.groupCount) :: d.names }
  else .error .malformed

/-- The draft with a reference to a named group. -/
def pushNamedReference (d : Draft) (name : Text) : Except Error Draft :=
  match isIdentifier name, d.names.lookup name with
  | true, some i => d.pushReference i
  | _, _ => .error .malformed

/-- The draft inside a choice by a group, given by name or number. -/
def enterCond (d : Draft) (name : Text) : Except Error Draft :=
  let index := if isIdentifier name then (d.names.lookup name).map (·, d.wanted)
    else (groupNumber? name).bind fun i => if 0 < i && i < groupLimit then some (i, i :: d.wanted) else none
  match index with
  | none => .error .malformed
  | some (i, wanted) =>
    if d.reachesBehind i then .ok ({ d with wanted }.enter (.cond i) d.level.flags) else .error .malformed

/-- The draft with flags for the whole pattern, which may stand only at its very beginning. -/
def declare (d : Draft) (on : List Char) : Except Error Draft :=
  if d.outer.isEmpty && d.level.alternatives.isEmpty && d.level.items.isEmpty then
    .ok { d with
      mode := .item
      level := { d.level with flags := on.foldl (Flags.set true) d.level.flags }
      declaredAscii := d.declaredAscii || on.contains 'a'
      declaredUnicode := d.declaredUnicode || on.contains 'u'
      template := d.template || on.contains 't' }
  else .error .malformed

/-- The draft inside a group with flags of its own. -/
def enterFlags (d : Draft) (on off : List Char) : Except Error Draft :=
  if on.contains 't' || off.contains 't' || on.any off.contains then .error .malformed
  else .ok (d.enter .plain (off.foldl (Flags.set false) (on.foldl (Flags.set true) d.level.flags)))

/-- The letters of flags with a further one; the kinds of characters exclude each other. -/
def addFlag (on : List Char) (c : Char) : Except Error (List Char) :=
  if !isFlag c || c == 'L' || (isKindFlag c && on.any (fun o => isKindFlag o && o != c)) then .error .malformed
  else .ok (c :: on)

/-! ## One character -/

/-- The draft with the set that is closed. -/
def closeSet (d : Draft) (s : SetDraft) : Draft := d.pushSet s.negated s.items.reverse

/-- The draft with a range of characters in the set. -/
def finishRange (d : Draft) (s : SetDraft) : Item → Item → Except Error Draft
  | .code lo, .code hi =>
    if lo ≤ hi then .ok { d with mode := .set { s with items := .range lo hi :: s.items } .member }
    else .error .malformed
  | _, _ => .error .malformed

/-- The draft with what an escape named, where it belongs. -/
def deliver (d : Draft) : Target → Item → Except Error Draft
  | .sequence, .code n => .ok (d.pushCode n)
  | .sequence, item => .ok (d.pushSet false [item])
  | .set s none, item => .ok { d with mode := .set s (.after item) }
  | .set s (some low), item => d.finishRange s low item

/-- A character where an item of a set may begin. -/
def feedMember (d : Draft) (s : SetDraft) (c : Char) : Draft :=
  if c = ']' && !s.items.isEmpty then d.closeSet s
  else if c = '\\' then { d with mode := .escape (.set s none) }
  else { d with mode := .set s (.after (.code c.toNat)) }

/-- A character inside the brackets of a set. -/
def feedSet (d : Draft) (s : SetDraft) : SetStage → Char → Except Error Draft
  | .opened, '^' => .ok { d with mode := .set { s with negated := true } .member }
  | .opened, c => .ok (d.feedMember s c)
  | .member, c => .ok (d.feedMember s c)
  | .after item, '-' => .ok { d with mode := .set s (.dash item) }
  | .after item, c => .ok (d.feedMember { s with items := item :: s.items } c)
  | .dash low, ']' => .ok (d.closeSet { s with items := .code 45 :: low :: s.items })
  | .dash low, '\\' => .ok { d with mode := .escape (.set s (some low)) }
  | .dash low, c => d.finishRange s low (.code c.toNat)

/-- The blanks that a verbose pattern may hold between its items. -/
def isLayout (c : Char) : Bool := isAsciiBlank c

/-- A character where a new item may begin. -/
def feedItem (d : Draft) (c : Char) : Except Error Draft :=
  if d.level.flags.verbose && isLayout c then .ok { d with mode := .item }
  else if d.level.flags.verbose && c == '#' then .ok { d with mode := .remark }
  else
    match c with
    | '\\' => .ok { d with mode := .escape .sequence }
    | '[' => .ok { d with mode := .set {} .opened }
    | '(' => .ok { d with mode := .paren }
    | ')' => d.close
    | '|' => d.nextAlternative
    | '*' => d.quantify 0 none
    | '+' => d.quantify 1 none
    | '?' => d.quantify 0 (some 1)
    | '\x7b' => .ok { d with mode := .braces [] none }
    | '.' => .ok (d.push (.one (if d.level.flags.dotAll then CharSet.all else CharSet.notNewline)))
    | '^' => .ok (d.push (.anchor (if d.level.flags.multiline then .lineStart else .textStart)))
    | '$' => .ok (d.push (.anchor (if d.level.flags.multiline then .lineEnd else .finalEnd)))
    | c => .ok (d.pushCode c.toNat)

/-- A character again, after what was pending in front of it has been settled. -/
def refeed (d : Draft) (c : Char) : Except Error Draft :=
  match d.mode with
  | .set s stage => d.feedSet s stage c
  | _ => d.feedItem c

/-- The simple escapes that name a character. -/
def controlCode? : Char → Option Nat
  | 'a' => some 7
  | 't' => some 9
  | 'n' => some 10
  | 'v' => some 11
  | 'f' => some 12
  | 'r' => some 13
  | _ => none

/-- The escapes that name a class of characters. -/
def category? : Char → Option Item
  | 'd' => some (.category .digit false)
  | 'D' => some (.category .digit true)
  | 's' => some (.category .blank false)
  | 'S' => some (.category .blank true)
  | 'w' => some (.category .word false)
  | 'W' => some (.category .word true)
  | _ => none

/-- The escapes that name a condition on the place. -/
def anchor? (ascii : Bool) : Char → Option Anchor
  | 'A' => some .textStart
  | 'Z' => some .textEnd
  | 'b' => some (.wordEdge ascii)
  | 'B' => some (.noWordEdge ascii)
  | _ => none

/-- The character behind a backslash, where it means the same inside and outside of sets. -/
def feedCommonEscape (d : Draft) (t : Target) (c : Char) : Except Error Draft :=
  match category? c, controlCode? c with
  | some item, _ => d.deliver t item
  | none, some n => d.deliver t (.code n)
  | none, none =>
    match c with
    | 'x' => .ok { d with mode := .hex t 2 0 }
    | 'u' => .ok { d with mode := .hex t 4 0 }
    | 'U' => .ok { d with mode := .hex t 8 0 }
    | c => if c.isAlphanum then .error .malformed else d.deliver t (.code c.toNat)

/-- The character behind a backslash. -/
def feedEscape (d : Draft) (t : Target) (c : Char) : Except Error Draft :=
  match t with
  | .sequence =>
    match anchor? d.level.flags.ascii c with
    | some a => .ok (d.push (.anchor a))
    | none =>
      if c = '0' then .ok { d with mode := .octal t 2 0 }
      else if c.isDigit then .ok { d with mode := .reference (c.toNat - 48) none }
      else d.feedCommonEscape t c
  | .set _ _ =>
    if c = 'b' then d.deliver t (.code 8)
    else
      match octalValue? c with
      | some n => .ok { d with mode := .octal t 2 n }
      | none => d.feedCommonEscape t c

/-- The draft with the character an octal escape names. -/
def finishOctal (d : Draft) (t : Target) (value : Nat) : Except Error Draft :=
  if value ≤ 255 then d.deliver t (.code value) else .error .malformed

/-- The draft with the character a hexadecimal escape names. -/
def finishHex (d : Draft) (t : Target) (value : Nat) : Except Error Draft :=
  if value < 0x110000 then d.deliver t (.code value) else .error .malformed

/-- The draft with what stands behind a brace that opens no quantifier, character by character. -/
def unbrace (d : Draft) (lo : Text) (hi : Option Text) : Draft :=
  let inside := match hi with
    | none => lo.reverse
    | some hi => lo.reverse ++ ',' :: hi.reverse
  ('\x7b' :: inside).foldl (fun d c => d.pushCode c.toNat) d

/-- The count that the digits of a quantifier write. -/
def count? (digits : Text) : Except Error (Option Nat) :=
  if digits.isEmpty then .ok none
  else if maxNumeralDigits < digits.length then .error .numeralTooLong
  else if repetitionLimit ≤ numeralValue digits then .error .repetitionTooLarge
  else .ok (some (numeralValue digits))

/-- The draft behind a quantifier in braces. -/
def closeBraces (d : Draft) (lo hi : Text) : Except Error Draft :=
  match count? lo, count? hi with
  | .error e, _ => .ok { d with mode := .refused e }
  | .ok _, .error e => .ok { d with mode := .refused e }
  | .ok least, .ok most =>
    if most.any (· < least.getD 0) then .error .malformed else d.quantify (least.getD 0) most

/-- A character inside braces. -/
def feedBraces (d : Draft) (lo : Text) (hi : Option Text) (c : Char) : Except Error Draft :=
  match c, hi with
  | '\x7d', none => if lo.isEmpty then (d.unbrace lo hi).feedItem c else d.closeBraces lo.reverse lo.reverse
  | '\x7d', some hi => d.closeBraces lo.reverse hi.reverse
  | ',', none => .ok { d with mode := .braces lo (some []) }
  | c, none => if c.isDigit then .ok { d with mode := .braces (c :: lo) none } else (d.unbrace lo hi).feedItem c
  | c, some more => if c.isDigit then .ok { d with mode := .braces lo (some (c :: more)) }
    else (d.unbrace lo hi).feedItem c

/-- A character right behind `(?`. -/
def feedQuestion (d : Draft) (c : Char) : Except Error Draft :=
  match c with
  | 'P' => .ok { d with mode := .extension }
  | ':' => .ok (d.enter .plain d.level.flags)
  | '#' => .ok { d with mode := .comment }
  | '=' => .ok (d.enter (.ahead false) d.level.flags)
  | '!' => .ok (d.enter (.ahead true) d.level.flags)
  | '<' => .ok { d with mode := .lookBehind }
  | '(' => .ok { d with mode := .condName [] }
  | '>' => .ok (d.enter .atomic d.level.flags)
  | '-' => .ok { d with mode := .flagsOff [] [] }
  | c => (addFlag [] c).map fun on => { d with mode := .flagsOn on }

/-- The draft inside a look behind. -/
def enterBehind (d : Draft) (negated : Bool) : Draft :=
  { d with behindFrom := some (d.behindFrom.getD d.groupCount) }.enter (.behind negated d.behindFrom.isNone) d.level.flags

/-- A character among flags that are switched on. -/
def feedFlagsOn (d : Draft) (on : List Char) (c : Char) : Except Error Draft :=
  match c with
  | ')' => d.declare on
  | ':' => d.enterFlags on []
  | '-' => if on.contains 't' then .error .malformed else .ok { d with mode := .flagsOff on [] }
  | c => (addFlag on c).map fun on => { d with mode := .flagsOn on }

/-- A character among flags that are switched off. -/
def feedFlagsOff (d : Draft) (on off : List Char) (c : Char) : Except Error Draft :=
  if c = ':' && !off.isEmpty then d.enterFlags on off
  else if isFlag c && !isKindFlag c then .ok { d with mode := .flagsOff on (c :: off) }
  else .error .malformed

/-- A further character of a name, or, at the mark that ends it, what is to be done with the name. -/
def feedName (d : Draft) (stop : Char) (name : Text) (more : Text → Mode) (done : Text → Except Error Draft) (c : Char) :
    Except Error Draft :=
  if c = stop then (if name.isEmpty then .error .malformed else done name.reverse)
  else if c = '\\' then .error .malformed
  else .ok { d with mode := more (c :: name) }

/-- A further digit of a reference, or whatever follows the reference. -/
def feedReference (d : Draft) (first : Nat) (second : Option Nat) (c : Char) : Except Error Draft :=
  match second with
  | none =>
    if c.isDigit then .ok { d with mode := .reference first (some (c.toNat - 48)) }
    else d.pushReference first >>= (·.feedItem c)
  | some n =>
    match octalValue? c with
    | some o =>
      if first ≤ 7 && n ≤ 7 then d.finishOctal .sequence (first * 64 + n * 8 + o)
      else d.pushReference (first * 10 + n) >>= (·.feedItem c)
    | none => d.pushReference (first * 10 + n) >>= (·.feedItem c)

/-- One character of the pattern. -/
def feed (d : Draft) (c : Char) : Except Error Draft :=
  match d.mode with
  | .item => d.feedItem c
  | .quantified min max =>
    match c with
    | '?' => .ok (d.repeatLast .lazy min max)
    | '+' => .ok (d.repeatLast .possessive min max)
    | c => (d.repeatLast .greedy min max).feedItem c
  | .braces lo hi => d.feedBraces lo hi c
  | .refused e => if c = '\\' then .ok { d with mode := .refusedEscape e } else .error e
  | .refusedEscape e => .error e
  | .escape t => d.feedEscape t c
  | .hex t left value =>
    match hexDigitValue? c with
    | none => .error .malformed
    | some n =>
      if left ≤ 1 then d.finishHex t (value * 16 + n) else .ok { d with mode := .hex t (left - 1) (value * 16 + n) }
  | .octal t left value =>
    match octalValue? c with
    | none => d.finishOctal t value >>= (·.refeed c)
    | some n =>
      if left ≤ 1 then d.finishOctal t (value * 8 + n)
      else .ok { d with mode := .octal t (left - 1) (value * 8 + n) }
  | .reference first second => d.feedReference first second c
  | .set s stage => d.feedSet s stage c
  | .paren => if c = '?' then .ok { d with mode := .question } else d.enterGroup.feedItem c
  | .question => d.feedQuestion c
  | .extension =>
    match c with
    | '<' => .ok { d with mode := .groupName [] }
    | '=' => .ok { d with mode := .referenceName [] }
    | _ => .error .malformed
  | .lookBehind =>
    match c with
    | '=' => .ok (d.enterBehind false)
    | '!' => .ok (d.enterBehind true)
    | _ => .error .malformed
  | .groupName name => d.feedName '>' name .groupName d.enterNamed c
  | .referenceName name => d.feedName ')' name .referenceName d.pushNamedReference c
  | .condName name => d.feedName ')' name .condName d.enterCond c
  | .comment =>
    .ok (if c = ')' then { d with mode := .item } else if c = '\\' then { d with mode := .commentEscape } else d)
  | .commentEscape => .ok { d with mode := .comment }
  | .remark =>
    .ok (if c = '\n' then { d with mode := .item } else if c = '\\' then { d with mode := .remarkEscape } else d)
  | .remarkEscape => .ok { d with mode := .remark }
  | .flagsOn on => d.feedFlagsOn on c
  | .flagsOff on off => d.feedFlagsOff on off c

/-- What is pending at the end of the pattern, settled. -/
def settle (d : Draft) : Except Error Draft :=
  match d.mode with
  | .item | .remark => .ok d
  | .quantified min max => .ok (d.repeatLast .greedy min max)
  | .braces lo hi => .ok (d.unbrace lo hi)
  | .refused e => .error e
  | .octal .sequence _ value => d.finishOctal .sequence value
  | .reference first none => d.pushReference first
  | .reference first (some n) => d.pushReference (first * 10 + n)
  | _ => .error .malformed

/-- The tree of a pattern that has been read to its end. -/
def finish (d : Draft) : Except Error Node :=
  match d.settle with
  | .error e => .error e
  | .ok d =>
    if !d.outer.isEmpty then .error .malformed
    else if d.declaredAscii && d.declaredUnicode then .error .clashingFlags
    else if d.wanted.any (d.groupCount < ·) || d.misfit then .error .malformed
    else .ok d.level.node

end Draft

/-- Reading on from a draft. -/
def Draft.feedAll (d : Draft) (s : Text) : Except Error Draft := s.foldlM Draft.feed d

/-- The tree that a pattern writes. -/
def Node.ofText? (s : Text) (flags : Flags) : Except Error Node := (Draft.start flags).feedAll s >>= Draft.finish

/-- The greatest number of parentheses that are open at once while a text is read on from a draft. -/
def Draft.nesting (d : Draft) : Text → Nat
  | [] => d.outer.length
  | c :: s =>
    match d.feed c with
    | .ok d' => max d.outer.length (d'.nesting s)
    | .error _ => d.outer.length

/-- How deep the parentheses of a pattern are nested, as far as it can be read. -/
def nesting (s : Text) : Nat := (Draft.start {}).nesting s

/-- The tree that a pattern writes, with the numbers of its named groups. -/
def Node.ofTextNamed? (s : Text) (flags : Flags) : Except Error (Node × List (Text × Nat)) := do
  let draft ← (Draft.start flags).feedAll s
  let node ← draft.finish
  return (node, draft.names)

end StepCatalog.Regex
