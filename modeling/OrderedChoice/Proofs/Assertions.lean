import OrderedChoice.Proofs.Semantics.Composition
import OrderedChoice.Proofs.TextPreservation

/-!
# Assertions only filter

An assertion is a symbol that must match and is given back.  A rule with assertions matches if and
only if the rule without them does and each of them matches at the place that the other symbols
before it have reached; it ends at the same place, and its arguments are those of the rule without
assertions with `null` for each assertion (`matchRule_assertions`).

That is shown of derivations first (`Derives.assertions_iff`), by induction on the symbols: a place
within a rule is reached in one way only.
-/

namespace OrderedChoice

variable {τ : Type}

/-- The symbol must match and is given back. -/
def Symbol.isAssertion (x : Symbol) : Bool := decide (x.lookahead = .assert)

/-- The symbols that are not assertions. -/
def withoutAssertions (xs : List Symbol) : List Symbol := xs.filter fun x => !x.isAssertion

/-- The rule without its assertions. -/
def Rule.bare (x : Rule τ) : Rule τ := { x with symbols := withoutAssertions x.symbols }

/-- The arguments of symbols with assertions, from those of the others: `null` for each
assertion. -/
def insertNulls : List Symbol → List Value → List Value
  | [], vs => vs
  | x :: xs, vs =>
    if x.isAssertion then .null :: insertNulls xs vs
    else match vs with
      | [] => []
      | v :: vs => v :: insertNulls xs vs

section

variable {x : Symbol} {xs : List Symbol}

theorem withoutAssertions_cons_of_assertion (hx : x.isAssertion = true) :
    withoutAssertions (x :: xs) = withoutAssertions xs := by
  simp [withoutAssertions, hx]

theorem withoutAssertions_cons (hx : ¬ x.isAssertion = true) :
    withoutAssertions (x :: xs) = x :: withoutAssertions xs := by
  simp [withoutAssertions, hx]

theorem insertNulls_cons_of_assertion (hx : x.isAssertion = true) (vs : List Value) :
    insertNulls (x :: xs) vs = .null :: insertNulls xs vs := if_pos hx

theorem insertNulls_cons (hx : ¬ x.isAssertion = true) (v : Value) (vs : List Value) :
    insertNulls (x :: xs) (v :: vs) = v :: insertNulls xs vs := if_neg hx

/-- A symbol that is given back leaves the place where it was. -/
theorem Symbol.keeps_eq_ok_iff_of_assertion (hx : x.isAssertion = true) {p q : Position}
    {c : Result Value} {u : Value} :
    x.lookahead.keeps p c = .ok u q ↔ (∃ v q', c = .ok v q') ∧ u = .null ∧ q = p := by
  have hl : x.lookahead = .assert := of_decide_eq_true hx
  rw [hl]
  cases c <;> simp [Lookahead.keeps, eq_comm]

end

/-! ### Derivations -/

section

variable (s : Setting τ) (R : Semantics τ) (f : Frame τ)

/-- Each assertion matches at a place that the other symbols before it reach. -/
def AssertionsHold (xs : List Symbol) (p : Position) : Prop :=
  ∀ before x after, xs = before ++ x :: after → x.isAssertion = true →
    ∃ us q, Derives s R (.symbols f (withoutAssertions before) p (.ok us q)) ∧
      ∃ v q', Derives s R (.symbol f x q (.ok v q'))

end

namespace Derives

variable {s : Setting τ} {n d : Nat} {g : Grammar τ} {e : Expression τ} {x : Symbol}
  {xs : List Symbol} {p q : Position}

/-- An assertion comes first. -/
theorem assertionsHold_cons_of_assertion {R : Semantics τ} {f : Frame τ}
    (hx : x.isAssertion = true) : AssertionsHold s R f (x :: xs) p ↔
      (∃ v q, Derives s R (.symbol f x p (.ok v q))) ∧ AssertionsHold s R f xs p := by
  constructor
  · intro h
    refine ⟨?_, fun before y after hxs hy => ?_⟩
    · obtain ⟨us, m, hnil, hmatch⟩ := h [] x xs rfl hx
      cases hnil
      exact hmatch
    · have hy := h (x :: before) y after (by rw [hxs, List.cons_append]) hy
      rwa [withoutAssertions_cons_of_assertion hx] at hy
  · rintro ⟨hmatch, h⟩ before y after hxs hy
    cases before with
    | nil =>
      obtain ⟨rfl, rfl⟩ : x = y ∧ xs = after := by simpa using hxs
      exact ⟨[], p, .done, hmatch⟩
    | cons z before =>
      obtain ⟨rfl, rfl⟩ : x = z ∧ xs = before ++ y :: after := by simpa using hxs
      rw [withoutAssertions_cons_of_assertion hx]
      exact h before y after rfl hy

/-- Another symbol comes first, and the assertions behind it hold from where it leads. -/
theorem assertionsHold_cons (hx : ¬ x.isAssertion = true) {c : Result Value} {u : Value}
    (hc : Derives s (Within s n) (.symbol (s.frame d g e) x p c))
    (hq : x.lookahead.keeps p c = .ok u q) :
    AssertionsHold s (Within s n) (s.frame d g e) (x :: xs) p ↔
      AssertionsHold s (Within s n) (s.frame d g e) xs q := by
  constructor
  · intro h before y after hxs hy
    obtain ⟨us, m, hbefore, hmatch⟩ := h (x :: before) y after (by rw [hxs, List.cons_append]) hy
    rw [withoutAssertions_cons hx] at hbefore
    obtain ⟨u', us, q', rfl, ⟨c', hc', hq'⟩, hbefore⟩ := symbols_cons_ok_iff.1 hbefore
    -- the symbol comes to one thing only, and leads to one place
    obtain rfl := hc.symbol_unique hc'
    obtain ⟨rfl, rfl⟩ : u = u' ∧ q = q' := by simpa using hq.symm.trans hq'
    exact ⟨us, m, hbefore, hmatch⟩
  · intro h before y after hxs hy
    cases before with
    | nil =>
      obtain ⟨rfl, -⟩ : x = y ∧ xs = after := by simpa using hxs
      exact absurd hy hx
    | cons z before =>
      obtain ⟨rfl, rfl⟩ : x = z ∧ xs = before ++ y :: after := by simpa using hxs
      obtain ⟨us, m, hbefore, hmatch⟩ := h before y after rfl hy
      rw [withoutAssertions_cons hx]
      exact ⟨u :: us, m, symbols_cons_ok_iff.2 ⟨u, us, q, rfl, ⟨c, hc, hq⟩, hbefore⟩, hmatch⟩

/-- **Assertions only filter**: symbols match if the others do and the assertions hold. -/
theorem assertions_iff {args : List Value} :
    Derives s (Within s n) (.symbols (s.frame d g e) xs p (.ok args q)) ↔
      AssertionsHold s (Within s n) (s.frame d g e) xs p ∧
      ∃ vs, Derives s (Within s n) (.symbols (s.frame d g e) (withoutAssertions xs) p (.ok vs q)) ∧
        args = insertNulls xs vs := by
  induction xs generalizing p args with
  | nil =>
    constructor
    · intro h
      refine ⟨fun before x after hxs => ?_, args, h, rfl⟩
      simp at hxs
    · rintro ⟨-, vs, h, rfl⟩
      exact h
  | cons x xs ih =>
    rw [symbols_cons_ok_iff]
    by_cases hx : x.isAssertion = true
    · simp only [Symbol.keeps_eq_ok_iff_of_assertion hx, assertionsHold_cons_of_assertion hx,
        withoutAssertions_cons_of_assertion hx, insertNulls_cons_of_assertion hx, ih]
      constructor
      · rintro ⟨_, us, _, rfl, ⟨c, hc, ⟨v, q', rfl⟩, rfl, rfl⟩, hholds, vs, hvs, rfl⟩
        exact ⟨⟨⟨v, q', hc⟩, hholds⟩, vs, hvs, rfl⟩
      · rintro ⟨⟨⟨v, q', hc⟩, hholds⟩, vs, hvs, rfl⟩
        exact ⟨_, _, p, rfl, ⟨_, hc, ⟨v, q', rfl⟩, rfl, rfl⟩, hholds, vs, hvs, rfl⟩
    · simp only [withoutAssertions_cons hx, symbols_cons_ok_iff, ih]
      constructor
      · rintro ⟨u, us, m, rfl, ⟨c, hc, hm⟩, hholds, vs, hvs, rfl⟩
        exact ⟨(assertionsHold_cons hx hc hm).2 hholds, u :: vs,
          ⟨u, vs, m, rfl, ⟨c, hc, hm⟩, hvs⟩, (insertNulls_cons hx u vs).symm⟩
      · rintro ⟨hholds, _, ⟨u, vs, m, rfl, ⟨c, hc, hm⟩, hvs⟩, rfl⟩
        exact ⟨u, _, m, insertNulls_cons hx u vs, ⟨c, hc, hm⟩,
          (assertionsHold_cons hx hc hm).1 hholds, vs, hvs, rfl⟩

end Derives

/-! ### Runs -/

/-- An attempt is a match if its result is a success. -/
theorem Attempt.isMatch_iff {α : Type} {r : Attempt τ α} :
    r.outcome.isMatch = true ↔ ∃ a q, r.result? = some (.ok a q) := by
  obtain ⟨o, m⟩ := r
  cases o <;> simp [Outcome.isMatch, result?]

namespace Rule

section

variable (rule : Rule τ) (call : Matcher τ) (g : Grammar τ) (e : Expression τ) (m : Machine τ)

/-- Each assertion of the rule matches on its own, at the place that the symbols before it that are
not assertions have reached. -/
def AssertionsMatch : Prop :=
  ∀ before x after, rule.symbols = before ++ x :: after → x.isAssertion = true →
    ∃ us k, matchSymbols call g e rule.bare m.position (withoutAssertions before)
        (m.atRule rule.bare) = ⟨.matched us, k⟩ ∧
      (matchSymbol call g e x (k.atSymbol x)).outcome.isMatch = true

/-- The rule matches its symbols up to a place and is completed there, with these arguments. -/
def MatchesWith (s : Setting τ) (args : List Value) (q : Position) : Prop :=
  ∃ k, matchSymbols call g e rule m.position rule.symbols (m.atRule rule) = ⟨.matched args, k⟩ ∧
    k.position = q ∧
    matchRule s call g e rule m = finishRule s args ⟨g, e, rule, s.input, m.position, q⟩ k

end

variable {s : Setting τ} {n d : Nat} {g : Grammar τ} {e : Expression τ} {m : Machine τ}
  {rule : Rule τ}

/-- A rule that has matched has been completed with some arguments. -/
theorem exists_matchesWith {call : Matcher τ} {v : Value} {k : Machine τ}
    (h : matchRule s call g e rule m = ⟨.matched v, k⟩) :
    ∃ args, rule.MatchesWith call g e m s args k.position := by
  unfold MatchesWith
  unfold matchRule at h ⊢
  generalize matchSymbols call g e rule m.position rule.symbols (m.atRule rule) = r at h ⊢
  obtain ⟨o, m'⟩ := r
  cases o with
  | matched args =>
    have hk : (finishRule s args ⟨g, e, rule, s.input, m.position, m'.position⟩ m').machine.position
        = m'.position := finishRule_position ..
    rw [Attempt.andThen_matched] at h
    rw [h] at hk
    exact ⟨args, m', rfl, hk.symm, by rw [Attempt.andThen_matched, hk]⟩
  | mismatch | error | endless => cases h

theorem isMatch_matchRule_iff {call : Matcher τ} :
    (matchRule s call g e rule m).outcome.isMatch = true ↔
      ∃ args q, rule.MatchesWith call g e m s args q := by
  constructor
  · intro h
    generalize hr : matchRule s call g e rule m = r at h
    obtain ⟨o, k⟩ := r
    cases o with
    | matched v =>
      obtain ⟨args, hargs⟩ := exists_matchesWith hr
      exact ⟨args, _, hargs⟩
    | mismatch | error | endless => cases h
  · rintro ⟨args, q, k, -, -, h⟩
    rw [h]
    rfl

section

variable (hd : m.depth = d + 1)
include hd

theorem matchesWith_iff {args : List Value} {q : Position} :
    rule.MatchesWith (matchExpression s n) g e m s args q ↔
      Derives s (Within s n) (.symbols (s.frame d g e) rule.symbols m.position (.ok args q)) := by
  have hrun : (matchSymbols (matchExpression s n) g e rule m.position rule.symbols
      (m.atRule rule)).result? = some (.ok args q) ↔
      Derives s (Within s n) (.symbols (s.frame d g e) rule.symbols m.position (.ok args q)) :=
    result?_matchSymbols_iff (m := m.atRule rule) (.refl m.position) hd
  rw [← hrun]
  constructor
  · rintro ⟨k, hk, rfl, -⟩
    rw [hk]
    rfl
  · intro h
    have hexact := exact_matchSymbols (g := g) (e := e) (exact_matchExpression s n) rule
      rule.symbols (m.atRule rule) (.refl m.position)
    obtain ⟨k, hk, hq, -⟩ := hexact.eq_of_ok h
    refine ⟨k, hk, hq, ?_⟩
    unfold matchRule
    rw [hk, Attempt.andThen_matched, hq]

/-- What assertions do in a run is what they do in derivations. -/
theorem assertionsMatch_iff : rule.AssertionsMatch (matchExpression s n) g e m ↔
    AssertionsHold s (Within s n) (s.frame d g e) rule.symbols m.position := by
  refine forall₃_congr fun before x after => forall₂_congr fun _ _ => ?_
  have hsymbols : ∀ {r}, (matchSymbols (matchExpression s n) g e rule.bare m.position
      (withoutAssertions before) (m.atRule rule.bare)).result? = some r ↔
      Derives s (Within s n)
        (.symbols (s.frame d g e) (withoutAssertions before) m.position r) :=
    result?_matchSymbols_iff (m := m.atRule rule.bare) (.refl m.position) hd
  have hexact := exact_matchSymbols (g := g) (e := e) (exact_matchExpression s n) rule.bare
    (withoutAssertions before) (m.atRule rule.bare) (.refl m.position)
  have hmatch : ∀ k : Machine τ, k.depth = d + 1 →
      ((matchSymbol (matchExpression s n) g e x (k.atSymbol x)).outcome.isMatch = true ↔
        ∃ v q, Derives s (Within s n) (.symbol (s.frame d g e) x k.position (.ok v q))) := by
    intro k hk
    simp only [Attempt.isMatch_iff, result?_matchSymbol_iff (m := k.atSymbol x) hk]
    rfl
  constructor
  · rintro ⟨us, k, hk, hx⟩
    rw [hk] at hsymbols hexact
    exact ⟨us, k.position, hsymbols.1 rfl, (hmatch k (hexact.2.trans hd)).1 hx⟩
  · rintro ⟨us, q, hbefore, hx⟩
    obtain ⟨k, hk, rfl, hkd⟩ := hexact.eq_of_ok (hsymbols.2 hbefore)
    exact ⟨us, k, hk, (hmatch k (hkd.trans hd)).2 hx⟩

/-- The rule matches with arguments if the bare rule matches with the others and assertions do. -/
theorem matchesWith_iff_bare {args : List Value} {q : Position} :
    rule.MatchesWith (matchExpression s n) g e m s args q ↔
      rule.AssertionsMatch (matchExpression s n) g e m ∧
      ∃ vs, rule.bare.MatchesWith (matchExpression s n) g e m s vs q ∧
        args = insertNulls rule.symbols vs := by
  simp only [matchesWith_iff hd, assertionsMatch_iff hd]
  exact Derives.assertions_iff

end

end Rule

/-- **An assertion only filters.**  Tried in an expression, from any place and at any depth, a rule
matches if and only if it does without its assertions and each assertion matches on its own, at the
place that the symbols before it that are not assertions have reached.  When it matches, it ends
where the rule without assertions ends, and its arguments are those of that rule with `null`
inserted for each assertion. -/
theorem matchRule_assertions (s : Setting τ) (bound : Nat) (g : Grammar τ) (e : Expression τ)
    (rule : Rule τ) (m : Machine τ) :
    let call := matchExpression s bound
    let inside := m.enter e
    ((matchRule s call g e rule inside).outcome.isMatch = true ↔
      (matchRule s call g e rule.bare inside).outcome.isMatch = true ∧
        rule.AssertionsMatch call g e inside) ∧
    ∀ v k, matchRule s call g e rule inside = ⟨.matched v, k⟩ →
      ∃ v' k' args args', matchRule s call g e rule.bare inside = ⟨.matched v', k'⟩ ∧
        k'.position = k.position ∧
        rule.MatchesWith call g e inside s args k.position ∧
        rule.bare.MatchesWith call g e inside s args' k.position ∧
        args = insertNulls rule.symbols args' := by
  intro call inside
  have hd : inside.depth = m.depth + 1 := rfl
  refine ⟨?_, fun v k h => ?_⟩
  · rw [Rule.isMatch_matchRule_iff, Rule.isMatch_matchRule_iff]
    constructor
    · rintro ⟨args, q, h⟩
      obtain ⟨hassert, vs, hvs, -⟩ := (Rule.matchesWith_iff_bare hd).1 h
      exact ⟨⟨vs, q, hvs⟩, hassert⟩
    · rintro ⟨⟨vs, q, hvs⟩, hassert⟩
      exact ⟨_, q, (Rule.matchesWith_iff_bare hd).2 ⟨hassert, vs, hvs, rfl⟩⟩
  · obtain ⟨args, hargs⟩ := Rule.exists_matchesWith h
    obtain ⟨-, vs, hvs, hnulls⟩ := (Rule.matchesWith_iff_bare hd).1 hargs
    have hbare := hvs
    obtain ⟨k', -, hk', hfinish⟩ := hbare
    exact ⟨_, _, args, vs, hfinish, (finishRule_position s vs _ k').trans hk', hargs, hvs, hnulls⟩

/-- The look ahead to an accent takes nothing from the accented letters behind it. -/
theorem matchRule_assertions_accents :
    let s : Setting Transform := ⟨Transform.apply, none, "éb".toList⟩
    let call := matchExpression s 2
    let inside := (Machine.start "éb".toList).enter accents
    ∀ rule ∈ accents.rules, (matchRule s call accentGrammar accents rule inside).outcome =
        .matched (.list [.null, .list [.string "éb"], .null]) ∧
      (matchRule s call accentGrammar accents rule.bare inside).outcome.isMatch = true ∧
      rule.AssertionsMatch call accentGrammar accents inside := by
  intro s call inside rule hrule
  obtain rfl := List.mem_singleton.1 hrule
  exact ⟨rfl, (matchRule_assertions s 2 accentGrammar accents _ (.start _)).1.1 rfl⟩

end OrderedChoice
