import OrderedChoice.Proofs.Semantics.Completeness

/-!
# Texts are taken by maximal munch

A literal or a pattern is looked for again and again, one occurrence right behind the other, until
there is none, or one without any text, or until one is enough.  `Terminal.Scans` is this search,
with one rule for each way in which a round ends, and with no bound on the number of rounds.

* `Terminal.exists_scans`: every search ends;
* `Terminal.Scans.longestRun`: a search for any number of occurrences finds the longest text of them
  that there is, which is told by `Terminal.Scans.isMunch`;
* `Terminal.Scans.takes`: a quantifier looks at the number of occurrences, so that none is not
  confused with an empty one;
* `matchSymbol_munches` says what follows for symbols.
-/

namespace OrderedChoice

variable {τ : Type}

namespace Terminal

/-- The search of a text for occurrences that follow each other, with their number and the text that
they make up. -/
inductive Scans (t : Terminal) (repeats : Bool) : List Char → Nat → List Char → Prop
  | missing {cs : List Char} : ¬ t.BeginsWith cs → Scans t repeats cs 0 []
  | last {a cs : List Char} : t.Occurs a → a = [] ∨ repeats = false →
      Scans t repeats (a ++ cs) 1 a
  | more {a b cs : List Char} {k : Nat} : t.Occurs a → a ≠ [] → repeats = true →
      Scans t repeats cs k b → Scans t repeats (a ++ cs) (k + 1) (a ++ b)

/-- The text is that of as many copies of a literal as there are in a row, and consists of all
characters up to the first that a pattern does not accept. -/
def IsMunch (t : Terminal) (k : Nat) (a cs : List Char) : Prop :=
  match t with
  | literal text => a = (List.replicate k text).flatten ∧
      (text ≠ [] → ∀ j, (List.replicate j text).flatten <+: cs → j ≤ k)
  | pattern p => a = cs.takeWhile p.accepts

variable {t : Terminal} {repeats : Bool} {a cs text : List Char} {k : Nat}

/-! ### Every search ends -/

theorem exists_scans (t : Terminal) (repeats : Bool) (cs : List Char) :
    ∃ k a, t.Scans repeats cs k a := by
  -- an occurrence behind which the search goes on has some text, so that less of it is left
  induction hn : cs.length using Nat.strongRecOn generalizing cs with
  | ind n ih =>
    by_cases hb : t.BeginsWith cs
    · obtain ⟨a, ha, cs, rfl⟩ := hb
      by_cases hlast : a = [] ∨ repeats = false
      · exact ⟨1, a, .last ha hlast⟩
      · rw [not_or, Bool.not_eq_false] at hlast
        have hpos := List.length_pos_iff.2 hlast.1
        rw [List.length_append] at hn
        obtain ⟨k, b, h⟩ := ih cs.length (by omega) cs rfl
        exact ⟨k + 1, a ++ b, .more ha hlast.1 hlast.2 h⟩
    · exact ⟨0, [], .missing hb⟩

namespace Scans

theorem count_eq_zero_iff (h : t.Scans repeats cs k a) : k = 0 ↔ ¬ t.BeginsWith cs := by
  cases h with
  | missing hb => exact iff_of_true rfl hb
  | last ha | more ha =>
    exact iff_of_false (Nat.succ_ne_zero _) fun hn => hn ⟨_, ha, List.prefix_append _ _⟩

theorem eq_nil (h : t.Scans repeats cs k a) (hb : ¬ t.BeginsWith cs) : a = [] := by
  cases h with
  | missing => rfl
  | last ha | more ha => exact absurd ⟨_, ha, List.prefix_append _ _⟩ hb

theorem isPrefix (h : t.Scans repeats cs k a) : a <+: cs := by
  induction h with
  | missing => exact List.nil_prefix
  | last => exact List.prefix_append _ _
  | more _ _ _ _ ih => exact (List.prefix_append_right_inj _).2 ih

/-! ### What is found -/

/-- Where one occurrence is enough, no more is found. -/
theorem occurs (h : t.Scans false cs k a) (hb : t.BeginsWith cs) : t.Occurs a := by
  cases h with
  | missing hn => exact absurd hb hn
  | last ha => exact ha
  | more _ _ hr => cases hr

/-- **A search for any number of occurrences finds the longest text of them.** -/
theorem longestRun (h : t.Scans true cs k a) : t.LongestRun a cs := by
  induction h with
  | missing hn =>
    refine longestRun_nil fun b hb hr => ?_
    cases hr with
    | nil => rfl
    | cons ha _ => exact absurd ⟨_, ha, (List.prefix_append _ _).trans hb⟩ hn
  | last ha hlast =>
    obtain rfl := hlast.resolve_right nofun
    exact longestRun_nil fun b _ hr => hr.eq_nil ha
  | more ha _ _ _ ih => exact ih.cons ha

theorem eq_copies (h : (literal text).Scans repeats cs k a) :
    a = (List.replicate k text).flatten := by
  induction h with
  | missing => rfl
  | last ha =>
    cases ha
    simp
  | more ha _ _ _ ih =>
    cases ha
    rw [List.replicate_succ, List.flatten_cons, ih]

end Scans

theorem repeats_copies (text : List Char) (k : Nat) :
    (literal text).Repeats (List.replicate k text).flatten := by
  induction k with
  | zero => exact .nil
  | succ k ih =>
    rw [List.replicate_succ, List.flatten_cons]
    exact .cons (.literal text) ih

/-- The longest text of characters that a pattern accepts ends where there is no other. -/
theorem longestRun_takeWhile (p : Pattern) (cs : List Char) :
    (pattern p).LongestRun (cs.takeWhile p.accepts) cs := by
  have hend : NoHead p.accepts (cs.dropWhile p.accepts) := by
    intro c hc
    have h := List.head?_dropWhile_not p.accepts cs
    rw [hc] at h
    exact h
  have hall : ∀ c ∈ cs.takeWhile p.accepts, p.accepts c = true :=
    List.all_eq_true.1 List.all_takeWhile
  have hrun := longestRun_pattern hall hend
  rwa [List.takeWhile_append_dropWhile] at hrun

theorem Scans.isMunch (h : t.Scans true cs k a) : t.IsMunch k a cs := by
  cases t with
  | literal text =>
    refine ⟨h.eq_copies, fun htext j hj => ?_⟩
    -- more copies would be a longer text of occurrences
    have hle := h.longestRun.2.2 _ hj (repeats_copies text j)
    rw [h.eq_copies] at hle
    simp only [List.length_flatten, List.map_replicate, List.sum_replicate_nat] at hle
    exact Nat.le_of_mul_le_mul_right hle (List.length_pos_iff.2 htext)
  | pattern p => exact h.longestRun.unique (longestRun_takeWhile p cs)

end Terminal

/-! ### What a quantifier makes of it -/

/-- What a quantifier makes of so many occurrences, which make up a text from a place on. -/
def Quantifier.verdict (q : Quantifier) (k : Nat) (a : List Char) (p : Position) : Result Value :=
  if k = 0 ∧ q.allowsNone = false then .fail else .ok (.ofChars a) (p.advance a.length)

theorem Terminal.Scans.takes {t : Terminal} {q : Quantifier} {p : Position} {k : Nat}
    {a : List Char} (h : t.Scans q.isRepeating p.rest k a) : t.Takes q p (q.verdict k a p) := by
  have hs : p.Spans a (p.advance a.length) := Position.spans_of_prefix h.isPrefix
  unfold Quantifier.verdict
  by_cases hb : t.BeginsWith p.rest
  · rw [if_neg fun hk => (h.count_eq_zero_iff.1 hk.1) hb]
    cases hq : q.isRepeating with
    | true =>
      rw [hq] at h
      exact .repeated hq hb h.longestRun hs
    | false =>
      rw [hq] at h
      exact .single hq (h.occurs hb) hs
  · obtain rfl := h.eq_nil hb
    cases hq : q.allowsNone with
    | true =>
      rw [if_neg (by simp), List.length_nil, Position.advance_zero]
      exact .absent hb hq
    | false =>
      rw [if_pos ⟨h.count_eq_zero_iff.2 hb, rfl⟩]
      exact .missing hb hq

/-! ### Symbols -/

/-- The text that a symbol matches directly, if it does. -/
def Symbol.terminal? (x : Symbol) : Option Terminal :=
  match x.kind with
  | .literal text => some (.literal text.toList)
  | .pattern p => some (.pattern p)
  | .reference _ => none

theorem matchKind_of_terminal? {x : Symbol} {t : Terminal} (hx : x.terminal? = some t)
    (call : Matcher τ) (g : Grammar τ) (e : Expression τ) (m : Machine τ) :
    matchKind call g e x m = matchTerminal t x.quantifier m := by
  unfold Symbol.terminal? at hx
  unfold matchKind
  cases hk : x.kind with
  | literal text =>
    rw [hk] at hx
    cases hx
    rfl
  | pattern p =>
    rw [hk] at hx
    cases hx
    rfl
  | reference ref =>
    rw [hk] at hx
    cases hx

/-- What comes of a symbol whose search has found so many occurrences. -/
theorem matchSymbol_of_scans {x : Symbol} {t : Terminal} {m : Machine τ} {k : Nat} {a : List Char}
    (hx : x.terminal? = some t) (h : t.Scans x.quantifier.isRepeating m.position.rest k a)
    (call : Matcher τ) (g : Grammar τ) (e : Expression τ) :
    let r := matchSymbol call g e x m
    (k = 0 ∧ x.quantifier.allowsNone = false ∧ r.outcome = .mismatch ∧
      r.machine.position = m.position) ∨
    (¬ (k = 0 ∧ x.quantifier.allowsNone = false) ∧ r.outcome = .matched (.ofChars a) ∧
      m.position.Spans a r.machine.position) := by
  have hexact := exact_matchTerminal t x.quantifier m
  have hresult := result?_matchTerminal h.takes
  unfold matchSymbol
  rw [matchKind_of_terminal? hx]
  by_cases hk : k = 0 ∧ x.quantifier.allowsNone = false
  · rw [Quantifier.verdict, if_pos hk] at hresult
    obtain ⟨m', hm', hposition, -⟩ := hexact.eq_of_fail hresult
    rw [hm']
    exact .inl ⟨hk.1, hk.2, rfl, hposition⟩
  · rw [Quantifier.verdict, if_neg hk] at hresult
    obtain ⟨m', hm', hposition, -⟩ := hexact.eq_of_ok hresult
    have hs : m.position.Spans a m'.position := hposition ▸ Position.spans_of_prefix h.isPrefix
    rw [hm']
    exact .inr ⟨hk, rfl, hs⟩

/-- **Literals and patterns are matched by maximal munch**, whatever place of a text they are tried
at.  The search for occurrences ends.  Repeated, the symbol takes the longest text of occurrences
that is there, and else one occurrence, if there is one.  It fails, and stays where it is, if and
only if there is none and the quantifier asks for one; otherwise it succeeds, with the text that it
takes as its value, and goes on to the end of that text.  The empty literal always succeeds, with
the empty text. -/
theorem matchSymbol_munches (call : Matcher τ) (g : Grammar τ) (e : Expression τ) (x : Symbol)
    (t : Terminal) (hx : x.terminal? = some t) (m : Machine τ) :
    let r := matchSymbol call g e x m
    let rest := m.position.rest
    let repeats := x.quantifier.isRepeating
    (∃ k a, t.Scans repeats rest k a) ∧
    (∀ k a, t.Scans repeats rest k a →
      (repeats = true → t.LongestRun a rest ∧ t.IsMunch k a rest) ∧
      (repeats = false → t.BeginsWith rest → t.Occurs a ∧ a <+: rest) ∧
      (¬ t.BeginsWith rest → a = []) ∧
      (r.outcome ≠ .mismatch →
        r.outcome = .matched (.ofChars a) ∧ m.position.Spans a r.machine.position)) ∧
    (r.outcome = .mismatch ↔ ¬ t.BeginsWith rest ∧ x.quantifier.allowsNone = false) ∧
    (r.outcome = .mismatch → r.machine.position = m.position) ∧
    (t = .literal [] → r.outcome = .matched (.string "") ∧ r.machine.position = m.position) := by
  intro r rest repeats
  obtain ⟨k, a, hscan⟩ := t.exists_scans repeats rest
  have hcases := fun {k a} (h : t.Scans repeats rest k a) => matchSymbol_of_scans hx h call g e
  refine ⟨⟨k, a, hscan⟩, fun k a h => ⟨?_, ?_, h.eq_nil, ?_⟩, ?_, ?_, ?_⟩
  · intro hr
    rw [hr] at h
    exact ⟨h.longestRun, h.isMunch⟩
  · intro hr hb
    have hp := h.isPrefix
    rw [hr] at h
    exact ⟨h.occurs hb, hp⟩
  · intro hne
    rcases hcases h with ⟨-, -, hmismatch, -⟩ | ⟨-, hmatched⟩
    · exact absurd hmismatch hne
    · exact hmatched
  · rw [← hscan.count_eq_zero_iff]
    rcases hcases hscan with ⟨hk, hq, hmismatch, -⟩ | ⟨hk, hmatched, -⟩
    · exact iff_of_true hmismatch ⟨hk, hq⟩
    · exact iff_of_false (by rw [hmatched]; nofun) hk
  · intro hmismatch
    rcases hcases hscan with ⟨-, -, -, hposition⟩ | ⟨-, hmatched, -⟩
    · exact hposition
    · cases hmatched.symm.trans hmismatch
  · rintro rfl
    -- the empty literal occurs everywhere, and no search goes on behind it
    have hempty : Terminal.Scans (.literal []) repeats rest 1 [] := .last (.literal []) (.inl rfl)
    rcases hcases hempty with ⟨hk, -⟩ | ⟨-, hmatched, hs⟩
    · cases hk
    · exact ⟨hmatched, hs.right_unique (.refl _)⟩

/-- Copies of a literal do not overlap: behind the second one its last two letters are left over. -/
theorem matchSymbol_munches_overlapping :
    let x := (Symbol.literal "aéa").quantified .oneOrMore
    let call : Matcher Empty := fun _ _ m => ⟨.mismatch, m⟩
    let m : Machine Empty := ⟨⟨3, "aéaaéaéa".toList⟩, 1, .none, []⟩
    let r := matchSymbol call (.empty "echoes") ⟨"echo", [⟨[x], none⟩]⟩ x m
    r.outcome = .matched (.string "aéaaéa") ∧ r.machine.cursor = 11 ∧
      (Terminal.literal "aéa".toList).LongestRun "aéaaéa".toList "aéaaéaéa".toList := by
  intro x call m r
  have houtcome : r.outcome = .matched (.string "aéaaéa") := rfl
  obtain ⟨⟨k, a, hscan⟩, hmunch, -⟩ :=
    matchSymbol_munches call (.empty "echoes") ⟨"echo", [⟨[x], none⟩]⟩ x (.literal "aéa".toList)
      rfl m
  obtain ⟨hrun, -, -, hmatched⟩ := hmunch k a hscan
  have hne : r.outcome ≠ .mismatch := by
    rw [houtcome]
    nofun
  have hvalue : Outcome.matched (Value.string "aéaaéa") = .matched (Value.ofChars a) :=
    houtcome.symm.trans (hmatched hne).1
  have ha : "aéaaéa".toList = a := by
    rw [Value.ofChars] at hvalue
    injection hvalue with hvalue
    injection hvalue with hvalue
    rw [hvalue, String.toList_ofList]
  exact ⟨houtcome, rfl, ha ▸ (hrun rfl).1⟩

end OrderedChoice
