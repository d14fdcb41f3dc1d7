import OrderedChoice.Regex.Escape

/-!
# Bracket classes

The inside of `[…]`: single characters, ranges, escapes, named ASCII classes, classes in
brackets, and the set operations `&&`, `--` and `~~`, which bind to the left.
-/

namespace OrderedChoice.Regex

/-- The operations between parts of a class. -/
inductive SetOp where
  | inter
  | diff
  | symmDiff
  deriving DecidableEq, Repr

/-- The result of an operation. -/
def SetOp.apply : SetOp → CharSet → CharSet → CharSet
  | inter, a, b => .inter a b
  | diff, a, b => .diff a b
  | symmDiff, a, b => .symmDiff a b

variable (d : Dialect) (f : Flags)

/-- Reads one member: an escape or the character itself. -/
def readMember : List Char → Option (Primitive × List Char)
  | [] => none
  | '\\' :: r => readEscape d f r
  | c :: r => some (.char c false, r)

/-- Reads the second end of a range from the given first character. -/
def readRangeEnd (first : Char) (cs : List Char) : Option (CharSet × List Char) :=
  match readMember d f (f.skip cs) with
  | some (p, rest) =>
    match p.toChar? f with
    | some last =>
      if first.toNat ≤ last.toNat then some (.range first.toNat last.toNat, rest) else none
    | none => none
  | none => none

/-- Reads a member or a range.  A hyphen before `]` or another hyphen makes no range. -/
def readRange (cs : List Char) : Option (CharSet × List Char) :=
  match readMember d f cs with
  | none => none
  | some (p, rest) =>
    match f.skip rest with
    | [] => none
    | '-' :: r =>
      match f.peek r with
      | some ']' | some '-' => (p.toSet? f).map (·, '-' :: r)
      | _ => (p.toChar? f).bind fun first => readRangeEnd d f first r
    | rest => (p.toSet? f).map (·, rest)

/-- Reads a named ASCII class from behind its bracket: `:name:]` or `:^name:]`. -/
def readAsciiClass (cs : List Char) : Option (Bool × CharSet × List Char) :=
  match cs with
  | ':' :: r =>
    let (negated, r) := match r with
      | '^' :: r => (true, r)
      | r => (false, r)
    match splitAtChar ':' r with
    | some (name, ']' :: rest) =>
      (CharSet.asciiClass? (String.ofList name)).map fun ranges =>
        (negated, .ofRanges ranges, rest)
    | _ => none
  | _ => none

/-- Reads the hyphens at the start of a class, which stand for themselves. -/
def readHyphens : Nat → List Char → Bool × List Char
  | 0, cs => (false, cs)
  | n + 1, '-' :: r => (true, (readHyphens n (f.skip r)).2)
  | _, cs => (false, cs)

/-- Reads the start of a class from behind its bracket: whether it is negated, and the hyphens
or the closing bracket that stand for themselves there. -/
def readOpening (cs : List Char) : Bool × CharSet × List Char :=
  let (negated, cs) := match f.skip cs with
    | '^' :: r => (true, f.skip r)
    | cs => (false, cs)
  match readHyphens f cs.length cs with
  | (true, rest) => (negated, .single '-', rest)
  | (false, ']' :: r) => (negated, .single ']', f.skip r)
  | (false, cs) => (negated, .empty, cs)

/-- The class read so far, with the operation before it applied. -/
def combine : Option (SetOp × CharSet) → CharSet → CharSet
  | none, s => s
  | some (op, left), s => op.apply (f.closeCase left) (f.closeCase s)

/-- Reads a class up to its closing bracket: `pending` is an operation with its left side, and
`acc` what has been read since. -/
def readSet : Nat → Option (SetOp × CharSet) → CharSet → List Char → Option (CharSet × List Char)
  | 0, _, _, _ => none
  | n + 1, pending, acc, cs =>
    match f.skip cs with
    | [] => none
    | ']' :: r => some (combine f pending acc, r)
    | '[' :: r =>
      match readAsciiClass r with
      | some (negated, s, rest) =>
        match f.finish negated s with
        | some s => readSet n pending (.union acc s) rest
        | none => none
      | none =>
        let (negated, first, rest) := readOpening f r
        match readSet n none first rest with
        | some (s, rest) =>
          match f.finish negated s with
          | some s => readSet n pending (.union acc s) rest
          | none => none
        | none => none
    | '&' :: '&' :: r => readSet n (some (.inter, combine f pending acc)) .empty r
    | '-' :: '-' :: r => readSet n (some (.diff, combine f pending acc)) .empty r
    | '~' :: '~' :: r => readSet n (some (.symmDiff, combine f pending acc)) .empty r
    | cs =>
      match readRange d f cs with
      | some (s, rest) => readSet n pending (.union acc s) rest
      | none => none

/-- Reads a class from behind its opening bracket. -/
def readBracket (cs : List Char) : Option (CharSet × List Char) :=
  let (negated, first, rest) := readOpening f cs
  match readSet d f (rest.length + 1) none first rest with
  | some (s, rest) => (f.finish negated s).map (·, rest)
  | none => none

end OrderedChoice.Regex
