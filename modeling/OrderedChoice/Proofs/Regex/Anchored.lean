import OrderedChoice.Grammar.Pattern
import OrderedChoice.Proofs.Regex.ClosedBody

/-!
# Classes between anchors

A pattern is compiled from its class between anchors, in a group of its own.  The group is closed by
the text put behind the class, unless a parenthesis of the class closes it before (`closesGroup`).

* `isFoundIn_betweenAnchors_iff`: between anchors, searching is matching in full;
* `read_anchored`: a class that does not close the group it is put in is an expression by itself,
  and the expression read is this one between anchors;
* `Library.Follows` is what is relied on of a library of expressions, and `follows_bundled` says
  that the one of this project does so;
* `ClassPattern.accepts_iff_matchesFully`: such a pattern is its class, with any library, and
  `Pattern.unbalanced_class` is a class for which that fails.
-/

namespace OrderedChoice

namespace Regex

/-- Whether a match that starts where the text starts may end where it ends. -/
def MatchesFully (r : Regex) (text : List Char) : Prop :=
  ∃ q ∈ r.ends ⟨[], text⟩, q.after = []

/-! ### Searching between anchors -/

/-- An expression between the tests for both ends of the text. -/
def betweenAnchors (r : Regex) : Regex := concat [look .textStart, r, look .textEnd]

theorem mem_ends_look {l : Look} {p q : Place} :
    q ∈ (look l).ends p ↔ l.holds p = true ∧ q = p := by
  rw [ends]
  split_ifs with h <;> simp [h]

theorem mem_ends_seq {r s : Regex} {p q : Place} :
    q ∈ (seq r s).ends p ↔ ∃ x ∈ r.ends p, q ∈ s.ends x := by
  rw [ends, List.mem_eraseDups, List.mem_flatMap]

theorem mem_ends_betweenAnchors {r : Regex} {p q : Place} :
    q ∈ r.betweenAnchors.ends p ↔ p.before = [] ∧ q ∈ r.ends p ∧ q.after = [] := by
  simp only [betweenAnchors, concat, mem_ends_seq, mem_ends_look, Look.holds, List.isEmpty_iff]
  constructor
  · rintro ⟨x, ⟨hbefore, rfl⟩, y, hy, hafter, rfl⟩
    exact ⟨hbefore, hy, hafter⟩
  · rintro ⟨hbefore, hq, hafter⟩
    exact ⟨p, ⟨hbefore, rfl⟩, q, hq, hafter, rfl⟩

theorem eq_of_mem_allFrom {p : Place} {before cs : List Char} (h : p ∈ Place.allFrom before cs)
    (hp : p.before = []) : before = [] ∧ p = ⟨[], cs⟩ := by
  induction cs generalizing before with
  | nil =>
    obtain rfl := List.mem_singleton.1 h
    exact ⟨hp, by rw [← hp]⟩
  | cons c cs ih =>
    rcases List.mem_cons.1 h with rfl | h
    · exact ⟨hp, by rw [← hp]⟩
    · exact absurd (ih h).1 (List.cons_ne_nil c before)

theorem mem_all_iff {p : Place} {text : List Char} (hp : p.before = []) :
    p ∈ Place.all text ↔ p = ⟨[], text⟩ := by
  constructor
  · exact fun h => (eq_of_mem_allFrom h hp).2
  · rintro rfl
    cases text <;> simp [Place.all, Place.allFrom]

/-- Between anchors, searching is matching in full. -/
theorem isFoundIn_betweenAnchors_iff {r : Regex} {text : List Char} :
    r.betweenAnchors.isFoundIn text = true ↔ r.MatchesFully text := by
  simp only [isFoundIn, List.any_eq_true, Bool.not_eq_true', List.isEmpty_eq_false_iff_exists_mem,
    mem_ends_betweenAnchors]
  constructor
  · rintro ⟨p, hp, q, hbefore, hq, hafter⟩
    obtain rfl := (mem_all_iff hbefore).1 hp
    exact ⟨q, hq, hafter⟩
  · rintro ⟨q, hq, hafter⟩
    exact ⟨_, (mem_all_iff rfl).2 rfl, q, rfl, hq, hafter⟩

/-! ### Reading between anchors -/

/-- Whether a text, read by itself, is left at a parenthesis: it would close a group around it. -/
def closesGroup (d : Dialect) (text : List Char) : Bool :=
  match readBody d (text.length + 1) [] [] ⟨.initial, [], text⟩ with
  | some (_, s) => !s.rest.isEmpty
  | none => false

variable {d : Dialect}

theorem read_of_closesGroup {text : List Char} (h : closesGroup d text = true) :
    read d text = none := by
  unfold closesGroup at h
  unfold read
  cases hbody : readBody d (text.length + 1) [] [] ⟨.initial, [], text⟩ with
  | none => rfl
  | some out =>
    obtain ⟨r, f, names, rest⟩ := out
    cases rest with
    | nil => simp [hbody] at h
    | cons c rest => rfl

section Steps

variable (n : Nat) (branches : List Regex) (items : List Item) (names : List (List Char))

theorem readBody_caret (r : List Char) :
    readBody d (n + 1) branches items ⟨.initial, names, '^' :: r⟩ =
      readBody d n branches (.node (look .textStart) :: items) ⟨.initial, names, r⟩ :=
  rfl

theorem readBody_group (r : List Char) :
    readBody d (n + 1) branches items ⟨.initial, names, '(' :: '?' :: ':' :: r⟩ =
      match readBody d n [] [] ⟨.initial, names, r⟩ with
      | some (body, ⟨_, names, ')' :: r⟩) =>
        readBody d n branches (.node body :: items) ⟨.initial, names, r⟩
      | _ => none :=
  rfl

theorem readBody_dollar :
    readBody d (n + 2) branches items ⟨.initial, names, ['$']⟩ =
      some (ofBranches (.node (look .textEnd) :: items) branches, ⟨.initial, names, []⟩) :=
  rfl

end Steps

/-- A class that does not close the group it is put in is an expression by itself, and between
anchors it stays what it is. -/
theorem read_anchored {cs : List Char} {whole : Regex}
    (h : read d (anchored cs) = some whole) (hclosed : closesGroup d cs = false) :
    ∃ r, read d cs = some r ∧ whole = r.betweenAnchors := by
  rw [read, anchored, List.length_cons, readBody_caret, List.length_cons, readBody_group] at h
  split at h
  · rename_i hread
    split at hread
    · rename_i body f names rest hbody
      obtain ⟨before, hbefore, halone⟩ | hend := staysBefore_of_readBody hbody
      · have halone := halone (cs.length + 1) (Nat.lt_succ_self _)
        cases before with
        | nil =>
          cases hbefore
          rw [List.length_cons, List.length_cons, readBody_dollar] at hread
          cases hread
          cases h
          exact ⟨body, by rw [read, halone], rfl⟩
        | cons c before => simp [closesGroup, halone] at hclosed
      · -- the parenthesis that ends the body cannot be the anchor behind it
        rcases List.suffix_cons_iff.1 hend with hend | hend
        · cases hend
        · cases List.suffix_nil.1 hend
    · cases hread
  · cases h

/-! ### Libraries -/

/-- What is relied on of a library: it takes the expressions of a dialect that are within its limits
and finds what they match. -/
structure Library.Follows (L : Library) (d : Dialect) : Prop where
  /-- A text is taken just in case it is an expression and within the limits. -/
  compile_iff : ∀ text, (∃ x, L.compile text = .ok x) ↔
    (∃ r, read d text = some r) ∧ d.fits text = true
  /-- The search is for a match anywhere. -/
  isMatch_eq : ∀ {text : List Char} {x : L.Compiled} {r : Regex}, L.compile text = .ok x →
    read d text = some r → ∀ cs, L.isMatch x cs = r.isFoundIn cs
  /-- What is within the limits between anchors is within them alone. -/
  fits_alone : ∀ {cs : List Char}, d.fits (anchored cs) = true → closesGroup d cs = false →
    d.fits cs = true

theorem Library.follows_ofDialect (hfits : ∀ {cs : List Char}, d.fits (anchored cs) = true →
    closesGroup d cs = false → d.fits cs = true) : (Library.ofDialect d).Follows d := by
  have hcompile : ∀ {text : List Char} {x : Regex}, (Library.ofDialect d).compile text = .ok x ↔
      read d text = some x ∧ d.fits text = true := by
    intro text x
    simp only [Library.ofDialect]
    cases read d text with
    | none => simp
    | some r => by_cases h : d.fits text = true <;> simp [h]
  exact {
    compile_iff := fun text => ⟨fun ⟨x, hx⟩ => ⟨⟨x, (hcompile.1 hx).1⟩, (hcompile.1 hx).2⟩,
      fun ⟨⟨r, hr⟩, h⟩ => ⟨r, hcompile.2 ⟨hr, h⟩⟩⟩
    isMatch_eq := fun hx hr cs => by
      cases (hcompile.1 hx).1.symm.trans hr
      rfl
    fits_alone := hfits }

theorem follows_bundled : Library.bundled.Follows .bundled :=
  Library.follows_ofDialect fun _ _ => rfl

variable {L : Library}

/-- What a library takes between anchors is an expression of the dialect. -/
theorem Library.Follows.exists_read {text : List Char} {x : L.Compiled} (hL : L.Follows d)
    (h : L.compile text = .ok x) : (∃ r, read d text = some r) ∧ d.fits text = true :=
  (hL.compile_iff text).1 ⟨x, h⟩

end Regex

open Regex

namespace ClassPattern

variable {L : Regex.Library} {d : Dialect} {source : String}

/-- Unless its class closes the group it is put in, a pattern is its class. -/
theorem accepts_iff_of_not_closesGroup (hL : L.Follows d) (p : ClassPattern L)
    (hclosed : closesGroup d p.source.toList = false) :
    ∃ r, Regex.read d p.source.toList = some r ∧ (∃ x, L.compile p.source.toList = .ok x) ∧
      ∀ c, p.accepts c = true ↔ r.MatchesFully [c] := by
  obtain ⟨⟨whole, hwhole⟩, hfits⟩ := hL.exists_read p.compile_source
  obtain ⟨r, hread, rfl⟩ := read_anchored hwhole hclosed
  refine ⟨r, hread, (hL.compile_iff _).2 ⟨⟨r, hread⟩, hL.fits_alone hfits hclosed⟩, fun c => ?_⟩
  rw [accepts, hL.isMatch_eq p.compile_source hwhole]
  exact isFoundIn_betweenAnchors_iff

/-- A pattern is its class, with any library of expressions: unless the class closes the group it is
put in, it is an expression by itself, and the pattern accepts the characters that this expression
matches in full; and what is no expression by itself is refused.  Nothing else can make the two
differ. -/
theorem accepts_iff_matchesFully (hL : L.Follows d) (hne : source ≠ "") :
    (∀ p, compile L source = .ok p →
      (closesGroup d source.toList = false ↔
        ∃ r, Regex.read d source.toList = some r ∧ (∃ x, L.compile source.toList = .ok x) ∧
          ∀ c, p.accepts c = true ↔ r.MatchesFully [c])) ∧
    ((∀ x, L.compile source.toList ≠ .ok x) → closesGroup d source.toList = false →
      ∃ message, compile L source = .error (.invalidPattern source message)) := by
  refine ⟨fun p hp => ?_, fun hinvalid hclosed => ?_⟩
  · obtain rfl := source_of_compile hp
    refine ⟨accepts_iff_of_not_closesGroup hL p, fun ⟨r, hread, _⟩ => ?_⟩
    cases hclosed : closesGroup d p.source.toList with
    | false => rfl
    | true => simp [read_of_closesGroup hclosed] at hread
  · cases hanchored : L.compile (anchored source.toList) with
    | error message => exact ⟨message, compile_of_error hne hanchored⟩
    | ok x =>
      obtain ⟨-, -, ⟨y, hy⟩, -⟩ :=
        accepts_iff_of_not_closesGroup hL ⟨source, x, hanchored⟩ hclosed
      exact absurd hy (hinvalid y)

end ClassPattern

/-- Two alternatives, of which the second may be empty, make a class. -/
theorem Pattern.accepts_iff_matchesFully_alternatives :
    Library.bundled.Follows .bundled ∧ "[a-c]|x?" ≠ "" ∧
      closesGroup .bundled "[a-c]|x?".toList = false ∧
      (Pattern.compile "[a-c]|x?").toOption.isSome = true ∧
      ∀ p, Pattern.compile "[a-c]|x?" = .ok p →
        ∃ r, Regex.read .bundled "[a-c]|x?".toList = some r ∧
          (∃ x, Library.bundled.compile "[a-c]|x?".toList = .ok x) ∧
          ∀ c, p.accepts c = true ↔ r.MatchesFully [c] :=
  ⟨follows_bundled, by decide, by decide +kernel, by decide +kernel, fun p hp =>
    ((ClassPattern.accepts_iff_matchesFully follows_bundled (by decide)).1 p hp).1
      (by decide +kernel)⟩

/-- A class whose parentheses only balance with those put around it is accepted, but it is no
expression by itself. -/
theorem Pattern.unbalanced_class :
    (Pattern.compile "a)|(?:b").toOption.isSome = true ∧
      Regex.read .bundled "a)|(?:b".toList = none ∧
      Library.bundled.compile "a)|(?:b".toList = .error Regex.malformed := by
  refine ⟨by decide +kernel, by decide +kernel, ?_⟩
  have hread : Regex.read .bundled "a)|(?:b".toList = none := by decide +kernel
  simp only [Library.bundled, Library.ofDialect, hread]

end OrderedChoice
