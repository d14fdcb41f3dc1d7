import OrderedChoice.Regex.CharSet

/-!
# Regular expressions

A `Regex` is matched at a place of a text, given by the characters before and after it.
`Regex.ends` lists the places where a match that starts at a place may end; which of them a
greedy or a lazy search would choose does not matter for whether there is a match.

* `Regex.ends` is the meaning, by recursion on the expression;
* `Regex.isFoundIn` is the unanchored search in a text.
-/

namespace OrderedChoice

/-- What is tested at a place without taking a character. -/
inductive Look where
  | textStart
  | textEnd
  | lineStart (crlf : Bool)
  | lineEnd (crlf : Bool)
  | wordBoundary (unicode : Bool)
  | notWordBoundary (unicode : Bool)
  | wordStart (unicode : Bool)
  | wordEnd (unicode : Bool)
  | wordStartHalf (unicode : Bool)
  | wordEndHalf (unicode : Bool)
  deriving DecidableEq, Repr

/-- A regular expression. -/
inductive Regex where
  | empty
  | set (s : CharSet)
  | look (l : Look)
  | seq (r s : Regex)
  | alt (r s : Regex)
  /-- At least `least` and at most `most` times, or without an upper limit. -/
  | iterate (r : Regex) (least : Nat) (most : Option Nat)
  deriving DecidableEq, Repr

/-- A place in a text: the characters before it, the nearest first, and those after it. -/
structure Place where
  before : List Char
  after : List Char
  deriving DecidableEq, Repr

namespace Place

/-- The place of a text, and the places behind each of its characters. -/
def allFrom : List Char → List Char → List Place
  | before, [] => [⟨before, []⟩]
  | before, c :: cs => ⟨before, c :: cs⟩ :: allFrom (c :: before) cs

/-- All places of a text. -/
def all (text : List Char) : List Place := allFrom [] text

end Place

/-- Whether a character is part of a word. -/
def isWordChar (unicode : Bool) (c : Char) : Bool :=
  if unicode then Unicode.Property.word.contains c.toNat else CharSet.asciiWord.contains c.toNat

namespace Look

/-- Whether the character next to a place is part of a word. -/
def wordAt (unicode : Bool) : List Char → Bool
  | [] => false
  | c :: _ => isWordChar unicode c

/-- Whether the test succeeds at a place. -/
def holds (l : Look) (p : Place) : Bool :=
  match l with
  | textStart => p.before.isEmpty
  | textEnd => p.after.isEmpty
  | lineStart false => p.before.isEmpty || p.before.head? == some '\n'
  | lineEnd false => p.after.isEmpty || p.after.head? == some '\n'
  | lineStart true =>
    p.before.isEmpty || p.before.head? == some '\n'
      || (p.before.head? == some '\r' && p.after.head? != some '\n')
  | lineEnd true =>
    p.after.isEmpty || p.after.head? == some '\r'
      || (p.after.head? == some '\n' && p.before.head? != some '\r')
  | wordBoundary u => wordAt u p.before != wordAt u p.after
  | notWordBoundary u => wordAt u p.before == wordAt u p.after
  | wordStart u => !wordAt u p.before && wordAt u p.after
  | wordEnd u => wordAt u p.before && !wordAt u p.after
  | wordStartHalf u => !wordAt u p.before
  | wordEndHalf u => !wordAt u p.after

end Look

namespace Regex

/-- The places reached by exactly `n` rounds. -/
def afterRounds (step : Place → List Place) : Nat → List Place → List Place
  | 0, ps => ps
  | n + 1, ps => afterRounds step n (ps.flatMap step).eraseDups

/-- The places reached by at most `n` rounds. -/
def withinRounds (step : Place → List Place) : Nat → List Place → List Place
  | 0, ps => ps
  | n + 1, ps => withinRounds step n (ps ++ ps.flatMap step).eraseDups

/-- The places where a match that starts at a place may end.  A round of a repetition never
moves backwards, so more rounds than there are places reach nothing new. -/
def ends : Regex → Place → List Place
  | empty, p => [p]
  | set s, p =>
    match p.after with
    | [] => []
    | c :: cs => if s.contains c.toNat then [⟨c :: p.before, cs⟩] else []
  | look l, p => if l.holds p then [p] else []
  | seq r s, p => ((ends r p).flatMap (ends s)).eraseDups
  | alt r s, p => (ends r p ++ ends s p).eraseDups
  | iterate r least most, p =>
    let places := p.after.length + 1
    let further := match most with
      | none => places
      | some m => min (m - least) places
    withinRounds (ends r) further (afterRounds (ends r) (min least places) [p])

/-- Whether the expression matches somewhere in a text. -/
def isFoundIn (r : Regex) (text : List Char) : Bool :=
  (Place.all text).any fun p => !(r.ends p).isEmpty

/-! ### Building -/

/-- The expressions one after the other. -/
def concat : List Regex → Regex
  | [] => empty
  | [r] => r
  | r :: rs => seq r (concat rs)

/-- One of the expressions; the first is the one given apart. -/
def choice (r : Regex) : List Regex → Regex
  | [] => r
  | s :: rs => alt r (choice s rs)

/-- A text of exactly one character of a set. -/
def oneOf (s : CharSet) : Regex := concat [look .textStart, set s, look .textEnd]

theorem oneOf_isFoundIn (s : CharSet) (c : Char) :
    (oneOf s).isFoundIn [c] = s.contains c.toNat := by
  cases h : s.contains c.toNat <;>
    simp [oneOf, concat, isFoundIn, Place.all, Place.allFrom, ends, Look.holds, h,
      List.eraseDups, List.eraseDupsBy, List.eraseDupsBy.loop]

end Regex

end OrderedChoice
