import OrderedChoice.Error
import OrderedChoice.Regex.Library

/-!
# Patterns

A pattern is a class of single characters given as a regular expression.  The class is put between
anchors, in a group of its own, and a character belongs to it if the expression is found in the text
that consists of this character.

A `ClassPattern` is compiled by any library of regular expressions, and a `Pattern` by the one of
this project.
-/

namespace OrderedChoice

namespace Regex

/-- A class between anchors. -/
def anchored (cs : List Char) : List Char := '^' :: '(' :: '?' :: ':' :: (cs ++ [')', '$'])

end Regex

/-- A class of characters with its source. -/
structure ClassPattern (L : Regex.Library) where
  source : String
  /-- The class between anchors. -/
  regex : L.Compiled
  /-- The expression is the one that the source stands for. -/
  compile_source : L.compile (Regex.anchored source.toList) = .ok regex

namespace ClassPattern

variable {L : Regex.Library}

/-- Patterns with the same source are the same. -/
theorem ext_source {p q : ClassPattern L} (h : p.source = q.source) : p = q := by
  obtain ⟨s, r, hr⟩ := p
  obtain ⟨s', r', hr'⟩ := q
  obtain rfl : s = s' := h
  obtain rfl : r = r' := Except.ok.inj (hr.symm.trans hr')
  rfl

instance : DecidableEq (ClassPattern L) := fun p q =>
  if h : p.source = q.source then .isTrue (ext_source h)
  else .isFalse fun e => h (congrArg source e)

/-- Whether a character belongs to the class. -/
def accepts (p : ClassPattern L) (c : Char) : Bool := L.isMatch p.regex [c]

/-- The pattern between slashes, under its name. -/
def inspect (p : ClassPattern L) : String := "Pattern(/" ++ p.source ++ "/)"

/-- The pattern with a source, which must be a regular expression and not empty. -/
def compile (L : Regex.Library) (source : String) : Except GrammarError (ClassPattern L) :=
  if source = "" then .error (.invalidPattern source GrammarError.emptyClass)
  else match h : L.compile (Regex.anchored source.toList) with
    | .ok regex => .ok ⟨source, regex, h⟩
    | .error message => .error (.invalidPattern source message)

theorem source_of_compile {source : String} {p : ClassPattern L}
    (h : compile L source = .ok p) : p.source = source := by
  unfold compile at h
  split at h
  · cases h
  · split at h
    · cases h
      rfl
    · cases h

/-- A class is refused for what is said of it between anchors. -/
theorem compile_of_error {source message : String} (hne : source ≠ "")
    (h : L.compile (Regex.anchored source.toList) = .error message) :
    compile L source = .error (.invalidPattern source message) := by
  rw [compile, if_neg hne]
  split
  · rename_i hok
    cases hok.symm.trans h
  · rename_i herror
    cases herror.symm.trans h
    rfl

end ClassPattern

/-- A pattern of the library of this project. -/
abbrev Pattern := ClassPattern .bundled

/-- The pattern with a source. -/
def Pattern.compile (source : String) : Except GrammarError Pattern :=
  ClassPattern.compile .bundled source

end OrderedChoice
