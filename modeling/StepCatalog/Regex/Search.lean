import StepCatalog.Regex.Node

/-!
# Matching and searching

A node is matched by trying its ways in order of preference and handing every place it reaches to what comes after
(`Node.run`): the first way after which the rest succeeds is the match. A place (`Place`) is a position in the text with what the
groups have captured so far, so giving a way up also gives up its captures.

A repetition runs its least number of rounds, then further ones; a further round starts only where the last further round did not
start, so a round that takes nothing is the last.
-/

namespace StepCatalog.Regex

/-- A position in a text, and the captures made on the way to it. -/
structure Place where
  /-- The characters in front, nearest first. -/
  before : Text
  /-- The characters to come. -/
  after : Text
  /-- What the groups captured, latest first. -/
  groups : List (Nat × Text)
  deriving DecidableEq, Repr

namespace Place

/-- The place behind the next `n` characters. -/
def advance (p : Place) (n : Nat) : Place :=
  { p with before := (p.after.take n).reverse ++ p.before, after := p.after.drop n }

/-- The place `n` characters in front, if the text goes back that far. -/
def back? (p : Place) (n : Nat) : Option Place :=
  if n ≤ p.before.length then
    some { p with before := p.before.drop n, after := (p.before.take n).reverse ++ p.after }
  else none

/-- What a group captured last. -/
def group? (p : Place) (i : Nat) : Option Text := p.groups.lookup i

/-- The place with what a group, entered at `start`, has captured. -/
def capture (i : Nat) (start p : Place) : Place :=
  { p with groups := (i, start.after.take (start.after.length - p.after.length)) :: p.groups }

/-- A word character at the head of a text. -/
def headIsWord (ascii : Bool) : Text → Bool
  | [] => false
  | c :: _ => Category.word.holds ascii c

/-- Whether a condition holds at the place. -/
def meets (p : Place) : Anchor → Bool
  | .textStart => p.before.isEmpty
  | .lineStart => p.before.isEmpty || p.before.head? == some '\n'
  | .finalEnd => p.after.isEmpty || p.after == ['\n']
  | .lineEnd => p.after.isEmpty || p.after.head? == some '\n'
  | .textEnd => p.after.isEmpty
  | .wordEdge ascii => headIsWord ascii p.before != headIsWord ascii p.after
  | .noWordEdge ascii =>
    !(p.before.isEmpty && p.after.isEmpty) && headIsWord ascii p.before == headIsWord ascii p.after

end Place

/-- What is tried from a place on. -/
abbrev Cont : Type := Place → Option Place

/-- A way of matching: from a place, with what comes after. -/
abbrev Matcher : Type := Place → Cont → Option Place

/-- A fixed number of rounds. -/
def exactly (round : Matcher) : Nat → Matcher
  | 0, p, k => k p
  | n + 1, p, k => round p (fun q => exactly round n q k)

/-- Up to a number of further rounds, as many as possible; `last` is where the last one started, counted from the end. -/
def upToGreedy (round : Matcher) : Nat → Option Nat → Matcher
  | 0, _, p, k => k p
  | n + 1, last, p, k =>
    if last = some p.after.length then k p
    else round p (fun q => upToGreedy round n (some p.after.length) q k) <|> k p

/-- Up to a number of further rounds, as few as possible. -/
def upToLazy (round : Matcher) : Nat → Option Nat → Matcher
  | 0, _, p, k => k p
  | n + 1, last, p, k =>
    k p <|>
      if last = some p.after.length then none
      else round p (fun q => upToLazy round n (some p.after.length) q k)

/-- Rounds that are settled one by one and never given back. -/
def upToPossessive (round : Matcher) : Nat → Option Nat → Cont
  | 0, _, p => some p
  | n + 1, last, p =>
    if last = some p.after.length then some p
    else
      match round p some with
      | some q => upToPossessive round n (some p.after.length) q
      | none => some p

/-- A fixed number of rounds, each settled on its own. -/
def exactlySettled (round : Matcher) : Nat → Cont
  | 0, p => some p
  | n + 1, p =>
    match round p some with
    | some q => exactlySettled round n q
    | none => none

/-- How many further rounds can start from a place: the bound, if there is one, and never more than the text has positions. -/
def furtherRounds (min : Nat) (max : Option Nat) (p : Place) : Nat :=
  match max with
  | some m => m - min
  | none => p.after.length + 1

/-- Whether a text begins with another one, character by character under a folding. -/
def agrees (fold : CaseFold) : Text → Text → Bool
  | [], _ => true
  | _ :: _, [] => false
  | a :: t, c :: s => fold.code a.toNat == fold.code c.toNat && agrees fold t s

/-- Matching a node from a place: the first of its ways after which `k` succeeds. -/
def Node.run : Node → Matcher
  | .empty, p, k => k p
  | .one set, p, k =>
    match p.after with
    | [] => none
    | c :: rest => if set.holds c then k { p with before := c :: p.before, after := rest } else none
  | .anchor a, p, k => if p.meets a then k p else none
  | .seq a b, p, k => a.run p (fun q => b.run q k)
  | .alt a b, p, k => a.run p k <|> b.run p k
  | .repeated .greedy min max body, p, k =>
    exactly body.run min p (fun q => upToGreedy body.run (furtherRounds min max q) none q k)
  | .repeated .lazy min max body, p, k =>
    exactly body.run min p (fun q => upToLazy body.run (furtherRounds min max q) none q k)
  | .repeated .possessive min max body, p, k =>
    match exactlySettled body.run min p with
    | none => none
    | some q =>
      match upToPossessive body.run (furtherRounds min max q) none q with
      | none => none
      | some r => k r
  | .group none body, p, k => body.run p k
  | .group (some i) body, p, k => body.run p (fun q => k (Place.capture i p q))
  | .backref i fold, p, k =>
    match p.group? i with
    | none => none
    | some t => if agrees fold t p.after then k (p.advance t.length) else none
  | .ahead negated body, p, k =>
    match body.run p some, negated with
    | some q, false => k { p with groups := q.groups }
    | none, true => k p
    | _, _ => none
  | .behind negated width body, p, k =>
    match (p.back? width).bind (fun q => body.run q some), negated with
    | some q, false => k { p with groups := q.groups }
    | none, true => k p
    | _, _ => none
  | .atomic body, p, k =>
    match body.run p some with
    | some q => k q
    | none => none
  | .cond i yes no, p, k => if (p.group? i).isSome then yes.run p k else no.run p k

/-- A match in a text: where it starts and ends, and what the groups captured. -/
structure Match where
  start : Nat
  stop : Nat
  groups : List (Nat × Text)
  deriving DecidableEq, Repr

/-- What a group captured last. -/
def Match.group? (m : Match) (i : Nat) : Option Text := m.groups.lookup i

/-- The match at a place, if there is one. -/
def Node.matchAt (n : Node) (before after : Text) : Option Match :=
  (n.run ⟨before, after, []⟩ some).map fun p => ⟨before.length, p.before.length, p.groups⟩

/-- The match that starts first, searched for from a place on. -/
def Node.searchFrom (n : Node) : Text → Text → Option Match
  | before, [] => n.matchAt before []
  | before, c :: rest =>
    match n.matchAt before (c :: rest) with
    | some m => some m
    | none => n.searchFrom (c :: before) rest

/-- The match in a text that starts first, if there is one. -/
def Node.search? (n : Node) (s : Text) : Option Match := n.searchFrom [] s

/-- The match at the beginning of a text, if there is one. -/
def Node.match? (n : Node) (s : Text) : Option Match := n.matchAt [] s

end StepCatalog.Regex
