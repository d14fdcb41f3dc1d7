import OrderedChoice.Regex.Bracket

/-!
# Groups and repetitions

What stands between an opening parenthesis and the body of its group, and the counts of a
repetition in braces.
-/

namespace OrderedChoice.Regex

/-- What an opening parenthesis begins. -/
inductive GroupHead where
  /-- Flags for the rest of the group around it. -/
  | setting (f : Flags) (rest : List Char)
  /-- A group, with the flags for its body and all group names used so far. -/
  | body (f : Flags) (names : List (List Char)) (rest : List Char)

/-- Reads flags up to the colon of a group or the closing parenthesis of a setting; a flag may
be given once, a hyphen once and not at the end, and a setting must give a flag. -/
def readFlags (names : List (List Char)) :
    Flags → List Char → Bool → Bool → List Char → Option GroupHead
  | _, _, _, _, [] => none
  | f, seen, off, hyphen, c :: r =>
    if c == ':' then if hyphen then none else some (.body f names r)
    else if c == ')' then if hyphen || seen.isEmpty then none else some (.setting f r)
    else if c == '-' then if off then none else readFlags names f seen true true r
    else if seen.contains c then none
    else
      match f.set? c (!off) with
      | some f => readFlags names f (c :: seen) off false r
      | none => none

/-- Whether a character may occur in the name of a group. -/
def isGroupNameChar (first : Bool) (c : Char) : Bool :=
  if first then c == '_' || Unicode.isAlphabetic c
  else c == '_' || c == '.' || c == '[' || c == ']' || Unicode.isAlphanumeric c

/-- Reads the name of a group, which must be new, up to its closing angle bracket. -/
def readGroupName (names : List (List Char)) (cs : List Char) :
    Option (List (List Char) × List Char) :=
  match splitAtChar '>' cs with
  | some (c :: name, rest) =>
    if isGroupNameChar true c && name.all (isGroupNameChar false) && !names.contains (c :: name)
    then some ((c :: name) :: names, rest)
    else none
  | _ => none

/-- Reads what follows an opening parenthesis; tests of the text around are refused. -/
def readGroupHead (f : Flags) (names : List (List Char)) (cs : List Char) : Option GroupHead :=
  match f.skip cs with
  | '?' :: '=' :: _ | '?' :: '!' :: _ => none
  | '?' :: '<' :: '=' :: _ | '?' :: '<' :: '!' :: _ => none
  | '?' :: 'P' :: '<' :: r | '?' :: '<' :: r =>
    (readGroupName names r).map fun (names, rest) => .body f names rest
  | '?' :: r => readFlags names f [] false false r
  | cs => some (.body f names cs)

/-! ### Repetition counts -/

/-- Reads digits; blanks between them do not count. -/
def readDigits (f : Flags) : Nat → List Char → List Char × List Char
  | 0, cs => ([], cs)
  | n + 1, cs =>
    match cs with
    | [] => ([], [])
    | c :: r =>
      if c.isDigit then
        let (ds, rest) := readDigits f n (f.skip r)
        (c :: ds, rest)
      else ([], c :: r)

/-- Reads a count: digits, at least one, below `2 ^ 32`, with white space around them. -/
def readCount (f : Flags) (cs : List Char) : Option (Nat × List Char) :=
  let (ds, rest) := readDigits f cs.length (cs.dropWhile Unicode.isWhiteSpace)
  match ds with
  | [] => none
  | ds =>
    let n := ds.foldl (fun acc c => 10 * acc + (c.toNat - '0'.toNat)) 0
    if n < UInt32.size then some (n, f.skip (rest.dropWhile Unicode.isWhiteSpace)) else none

/-- Reads the closing brace of a repetition and a question mark after it. -/
def closeCounts (f : Flags) (least : Nat) (most : Option Nat) :
    List Char → Option (Nat × Option Nat × List Char)
  | '\x7d' :: r =>
    match f.skip r with
    | '?' :: r => some (least, most, r)
    | r => some (least, most, r)
  | _ => none

/-- Reads the counts of a repetition from behind its brace: `n`, `n,` or `n,m`. -/
def readCounts (f : Flags) (cs : List Char) : Option (Nat × Option Nat × List Char) :=
  match readCount f (f.skip cs) with
  | none => none
  | some (least, ',' :: r) =>
    match f.skip r with
    | '\x7d' :: r => closeCounts f least none ('\x7d' :: r)
    | r =>
      match readCount f r with
      | some (most, r) => if least ≤ most then closeCounts f least (some most) r else none
      | none => none
  | some (least, r) => closeCounts f least (some least) r

end OrderedChoice.Regex
