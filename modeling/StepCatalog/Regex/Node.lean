import StepCatalog.Text.Blank
import StepCatalog.Text.Case
import StepCatalog.Text.Digit
import StepCatalog.Text.Word

/-!
# Regular expressions as trees

A regular expression is a tree of nodes. Everything that takes a character is one kind of node, a set of characters
(`CharSet`); letter case is settled when the set is built, so that matching only looks the character up. Members of a set are
code points rather than characters, because an escape may name a surrogate, which no text holds.

The width of a node (`Node.width`) bounds the length of what it takes; a look behind needs a fixed one.
-/

namespace StepCatalog.Regex

/-! ## Sets of characters -/

/-- How a character is folded before it is looked up: not at all, among the first 128 code points, or fully. -/
inductive CaseFold where
  | exact | ascii | full
  deriving DecidableEq, Repr

/-- The folded code point. -/
def CaseFold.code : CaseFold → Nat → Nat
  | .exact, n => n
  | .ascii, n => asciiLowerCode n
  | .full, n => lowerCode n

/-- The three named classes of characters. -/
inductive Category where
  | digit | blank | word
  deriving DecidableEq, Repr

/-- Whether a character is in a class, or in its part among the first 128 code points. -/
def Category.holds (ascii : Bool) : Category → Char → Bool
  | .digit, c => if ascii then c.isDigit else isDecimalDigit c
  | .blank, c => if ascii then isAsciiBlank c else isBlank c
  | .word, c => if ascii then isAsciiWordChar c else isWordChar c

/-- What stands between the brackets of a set, before letter case is settled. -/
inductive Item where
  | code (n : Nat)
  | range (lo hi : Nat)
  | category (k : Category) (negated : Bool)
  deriving DecidableEq, Repr

/-- A member of a set, looked up with a folded code point: a code point, a range, a class, a range that holds some code point
which folds to a partner of this one, or a range that holds this code point or its upper case. -/
inductive Member where
  | code (n : Nat)
  | range (lo hi : Nat)
  | category (k : Category) (ascii negated : Bool)
  | foldedRange (fold : CaseFold) (lo hi : Nat)
  | rangeOrUpper (lo hi : Nat)
  deriving DecidableEq, Repr

/-- The partners of a code point under a folding: the folded code point and, under the full folding, those that share its upper
case. -/
def CaseFold.partners (fold : CaseFold) (n : Nat) : List Nat :=
  match fold with
  | .full => lowerCode n :: sameUpper (lowerCode n)
  | fold => [fold.code n]

/-- Whether a folding tells two forms of the code point apart. -/
def CaseFold.isCased : CaseFold → Nat → Bool
  | .exact, _ => false
  | .ascii, n => isAsciiCasedCode n
  | .full, n => isCasedCode n

/-- Whether a member holds a code point that is already folded. -/
def Member.holds : Member → Nat → Bool
  | .code n, u => n == u
  | .range lo hi, u => lo ≤ u && u ≤ hi
  | .category k ascii negated, u => k.holds ascii (Char.ofNat u) != negated
  | .foldedRange fold lo hi, u => (List.range' lo (hi + 1 - lo)).any (fun n => (fold.partners n).contains u)
  | .rangeOrUpper lo hi, u => (lo ≤ u && u ≤ hi) || (lo ≤ upperCode u && upperCode u ≤ hi)

/-- A set of characters: those whose folded code point some member holds, or, negated, those for which none does. -/
structure CharSet where
  fold : CaseFold
  negated : Bool
  members : List Member
  deriving DecidableEq, Repr

namespace CharSet

/-- Whether the set holds a character. -/
def holds (s : CharSet) (c : Char) : Bool := s.members.any (·.holds (s.fold.code c.toNat)) != s.negated

/-- The set of one character, or of all others, under a folding. -/
def literal (fold : CaseFold) (negated : Bool) (n : Nat) : CharSet :=
  if fold.isCased n then ⟨fold, negated, (fold.partners n).map .code⟩ else ⟨.exact, negated, [.code n]⟩

/-- The first code point beyond the basic plane. -/
def beyondBasicPlane : Nat := 0x10000

/-- Whether an item has letter case under a folding; items beyond the basic plane always count as cased. -/
def itemIsCased (fold : CaseFold) : Item → Bool
  | .code n => beyondBasicPlane ≤ fold.code n || fold.isCased n
  | .range lo hi => beyondBasicPlane ≤ hi || (List.range' lo (hi + 1 - lo)).any fold.isCased
  | .category _ _ => false

/-- The members that stand for an item as it is. -/
def plainMember (ascii : Bool) : Item → Member
  | .code n => .code n
  | .range lo hi => .range lo hi
  | .category k negated => .category k ascii negated

/-- The members that stand for an item when case is ignored. -/
def foldedMembers (fold : CaseFold) (ascii : Bool) : Item → List Member
  | .code n => if beyondBasicPlane ≤ fold.code n then [.code n] else (fold.partners n).map .code
  | .range lo hi =>
    if beyondBasicPlane ≤ hi then [.foldedRange fold lo (beyondBasicPlane - 1), .rangeOrUpper lo hi]
    else [.foldedRange fold lo hi]
  | .category k negated => [.category k ascii negated]

/-- The set that brackets around items write. -/
def ofItems (fold : CaseFold) (ascii negated : Bool) (items : List Item) : CharSet :=
  match items.eraseDups with
  | [.code n] => literal fold negated n
  | items =>
    if items.any (itemIsCased fold) then ⟨fold, negated, items.flatMap (foldedMembers fold ascii)⟩
    else ⟨.exact, negated, items.map (plainMember ascii)⟩

/-- Every character but the line feed. -/
def notNewline : CharSet := ⟨.exact, true, [.code 10]⟩

/-- Every character. -/
def all : CharSet := ⟨.exact, true, []⟩

end CharSet

/-! ## Nodes -/

/-- Conditions on a place in the text, which take no character. -/
inductive Anchor where
  /-- At the beginning of the text. -/
  | textStart
  /-- At the beginning of a line. -/
  | lineStart
  /-- At the end of the text, or in front of its final line feed. -/
  | finalEnd
  /-- At the end of a line. -/
  | lineEnd
  /-- At the end of the text. -/
  | textEnd
  /-- Between a word character and none. -/
  | wordEdge (ascii : Bool)
  /-- Not between a word character and none, in a text that is not empty. -/
  | noWordEdge (ascii : Bool)
  deriving DecidableEq, Repr

/-- How many rounds a repetition prefers: as many as it can, as few, or as many as it can without ever giving one back. -/
inductive Greed where
  | greedy | lazy | possessive
  deriving DecidableEq, Repr

/-- A regular expression. -/
inductive Node where
  | empty
  | one (set : CharSet)
  | anchor (a : Anchor)
  | seq (first second : Node)
  | alt (first second : Node)
  | repeated (greed : Greed) (min : Nat) (max : Option Nat) (body : Node)
  /-- A parenthesis, with its number if it captures. -/
  | group (index : Option Nat) (body : Node)
  /-- What a group captured, once more. -/
  | backref (index : Nat) (fold : CaseFold)
  | ahead (negated : Bool) (body : Node)
  /-- A look at the `width` characters in front. -/
  | behind (negated : Bool) (width : Nat) (body : Node)
  /-- The first way in which the body matches, and no other. -/
  | atomic (body : Node)
  /-- One of two, by whether a group has captured. -/
  | cond (index : Nat) (yes no : Node)
  deriving DecidableEq, Repr

namespace Node

/-- The nodes one after the other. -/
def ofSeq : List Node → Node
  | [] => .empty
  | [n] => n
  | n :: ns => .seq n (ofSeq ns)

/-- The alternatives in order of preference. -/
def ofAlts : List Node → Node
  | [] => .empty
  | [n] => n
  | n :: ns => .alt n (ofAlts ns)

/-- A character that stands for itself under a folding. -/
def char (fold : CaseFold) (c : Char) : Node := .one (CharSet.literal fold false c.toNat)

/-- A text that stands for itself under a folding. -/
def literal (fold : CaseFold) (s : Text) : Node := ofSeq (s.map (char fold))

end Node

/-! ## Widths -/

/-- Bounds on the number of characters a node takes; there may be no upper one. -/
structure Width where
  lo : Nat
  hi : Option Nat
  deriving DecidableEq, Repr

namespace Width

/-- The width of a node after another. -/
def add (a b : Width) : Width :=
  ⟨a.lo + b.lo, a.hi.bind fun x => b.hi.map fun y => x + y⟩

/-- The width of a choice. -/
def choice (a b : Width) : Width :=
  ⟨min a.lo b.lo, a.hi.bind fun x => b.hi.map fun y => max x y⟩

/-- The width of rounds of a body. -/
def rounds (body : Width) (least : Nat) (most : Option Nat) : Width :=
  ⟨body.lo * least,
    match body.hi, most with
    | some 0, _ => some 0
    | _, some 0 => some 0
    | some h, some m => some (h * m)
    | _, _ => none⟩

end Width

/-- The width of a node, given those of the groups it refers back to. -/
def Node.width (groups : Nat → Width) : Node → Width
  | .empty | .anchor _ | .ahead _ _ | .behind _ _ _ => ⟨0, some 0⟩
  | .one _ => ⟨1, some 1⟩
  | .seq a b => (a.width groups).add (b.width groups)
  | .alt a b => (a.width groups).choice (b.width groups)
  | .repeated _ least most body => (body.width groups).rounds least most
  | .group _ body | .atomic body => body.width groups
  | .backref i _ => groups i
  | .cond _ yes no => (yes.width groups).choice (no.width groups)

end StepCatalog.Regex
