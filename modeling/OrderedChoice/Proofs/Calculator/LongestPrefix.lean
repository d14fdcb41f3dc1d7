import OrderedChoice.Proofs.Calculator.Correctness
import OrderedChoice.Proofs.Depth.Limit

/-!
# The calculator takes the longest text of its language

A session that does not ask for full matches takes from its input as much as is in the language of
the calculator.  Choices are never taken back, so this is a matter of the language: each operand
that is read as far as possible, and each operation that is added to a chain, only makes the text
longer, and what is begun behind it and not completed is given back.

* `Tree.exists_longer`: where a text has a derivation, a text that is not shorter is read;
* `exists_longer_derivation` says so of whole texts, with white space around the sum;
* `parse_longest`: the root expression takes the longest text of the language that the input begins
  with, and comes to the value of this text on its own; without such a text the parse is a mismatch.
-/

namespace OrderedChoice.Calculator

variable {text : List Char}

/-! ### Greed does no harm -/

/-- Digits with more digits behind them. -/
def Digits.append (digits : Digits) (ds : List Char) (h : ∀ c ∈ ds, digit.accepts c = true) :
    Digits where
  chars := digits.chars ++ ds
  ne_nil := List.append_ne_nil_of_left_ne_nil digits.ne_nil ds
  accepted c hc := (List.mem_append.1 hc).elim (digits.accepted c) (h c)

theorem exists_longer_number (negative : Bool) (digits : Digits) {p q : Position}
    (hs : p.Spans (Tree.number negative digits).text q) :
    ∃ (t : Tree .factor) (q' : Position), p.Spans t.text q' ∧ q.Reaches q' ∧
      Reads text Nonterminal.factor.expression p (.ok t.value q') := by
  obtain ⟨ds, q', hmore, hds, hend⟩ := q.exists_run digit.accepts
  -- the digits that are there, and all that follow them
  have hall : p.Spans (Tree.number negative (digits.append ds hds)).text q' := by
    have h := Position.Spans.trans hs hmore
    rwa [Tree.text, List.append_assoc] at h
  exact ⟨_, q', hall, ⟨ds, hmore⟩, isRead_number negative _ p q' hall hend⟩

/-- A chain that is matched so far is made longer by all operations that follow, and this is how the
repetition ends. -/
theorem exists_longer_chain {r : Rank} (left : Tree (.chain r)) {p k : Position}
    (hs : p.Spans left.text k) : ∃ (vs : List Value) (t : Tree (.chain r)) (q : Position),
      p.Spans t.text q ∧ k.Reaches q ∧ ReadsTails text r k (.ok vs q) ∧
        result (applyOperations (left.value?.map Int64.ofInt) vs) = t.value := by
  have hdecided : ∀ p' : Position, p'.rest.length ≤ k.rest.length → Decided text r.operand p' :=
    fun p' _ => decided text r.operand p'
  obtain ⟨vs, w, q, t, hw, ht, hvs, hvalue⟩ := read_tails k.rest.length hdecided k le_rfl left
  exact ⟨vs, t, q, ht ▸ hs.trans hw, ⟨w, hw⟩, hvs, hvalue⟩

/-- **Where a text has a derivation, a text that is not shorter is read**, and comes to the value of
a derivation of it. -/
theorem Tree.exists_longer {n : Nonterminal} (t : Tree n) {p q : Position}
    (hs : p.Spans t.text q) : ∃ (t' : Tree n) (q' : Position), p.Spans t'.text q' ∧ q.Reaches q' ∧
      Reads text n.expression p (.ok t'.value q') := by
  induction t generalizing p q with
  | number negative digits => exact exists_longer_number negative digits hs
  | paren before sum after =>
    exact ⟨_, q, hs, .refl q, reads_parenthesized sum.isRead hs⟩
  | operand t ih =>
    obtain ⟨t', k, ht', hk, h⟩ := ih hs
    obtain ⟨vs, u, q', hu, hq', hvs, hvalue⟩ := exists_longer_chain (.operand t') ht'
    exact ⟨u, q', hu, hk.trans hq', hvalue ▸ reads_operand_tails h hvs⟩
  | @operation r left before op after right _ ihr =>
    obtain ⟨p₀, hleft, hs⟩ := Position.Spans.split hs
    -- all operands but the last end before an operator, and cannot be read any further
    have hp₀ : Ends r.operand p₀.rest := by
      rw [hs.1, List.append_assoc]
      exact ends_operator before op _
    obtain ⟨m, hop, hright, htail⟩ := @exists_operand_place text _ _ _ _ _ _ _ hs
    obtain ⟨right', k, hright', hk, h⟩ := ihr hright
    have hoperation : p₀.Spans (before.chars ++ (op.char :: (after.chars ++ right'.text))) k := by
      have hspans := hop.trans hright'
      rwa [List.append_assoc, List.append_assoc] at hspans
    obtain ⟨vs, u, q', hu, hq', hvs, hvalue⟩ :=
      exists_longer_chain (.operation left before op after right') (hleft.trans hoperation)
    have hchain := left.isRead p p₀ hleft hp₀ _ q'
      (.repeatOn (htail h) (offset_ne_of_operation hoperation) hvs)
    rw [applyOperations_cons left before op after right' vs, hvalue] at hchain
    exact ⟨u, q', hu, hk.trans hq', hchain⟩

/-! ### Whole texts -/

/-- **No text of the language that the input begins with is longer than what is read.** -/
theorem exists_longer_derivation (d : Derivation) (hd : d.text <+: text) :
    ∃ (d' : Derivation) (q : Position), (Position.start text).Spans d'.text q ∧
      d.text <+: d'.text ∧
      Reads text rootExpression (.start text) (.ok d'.sum.value q) := by
  have hs₀ : (Position.start text).Spans d.text ((Position.start text).advance d.text.length) :=
    Position.spans_of_prefix hd
  generalize (Position.start text).advance d.text.length = q₀ at hs₀
  obtain ⟨p, hbefore, hs⟩ := hs₀.split
  obtain ⟨k, hsum, hafter⟩ := hs.split
  have hp : NoHead blank.accepts p.rest := by
    rw [hsum.1]
    exact d.sum.noHead_blank k.rest
  obtain ⟨t, m, ht, hm, h⟩ := @Tree.exists_longer text _ d.sum _ _ hsum
  obtain ⟨b, q, hb, hq⟩ := exists_blanks m
  let d' : Derivation := ⟨d.before, t, b⟩
  have hd' : (Position.start text).Spans d'.text q := hbefore.trans (ht.trans hb)
  -- the white space behind the text, and whatever else has been read, ends at the same place
  obtain ⟨cs, hcs⟩ := hafter.reaches_end d.after.accepted (hm.trans ⟨b.chars, hb⟩) hq
  refine ⟨d', q, hd', ⟨cs, ?_⟩, reads_root hbefore hp h hb hq⟩
  exact ((hs₀.trans hcs).textTo.symm).trans hd'.textTo

/-- The text is in the language of the calculator. -/
def Accepted (cs : List Char) : Prop := ∃ d : Derivation, d.text = cs

/-- `w` is the longest text of the language that `cs` begins with. -/
structure LongestPrefix (w cs : List Char) : Prop where
  isPrefix : w <+: cs
  accepted : Accepted w
  length_le : ∀ w', w' <+: cs → Accepted w' → w'.length ≤ w.length

/-- A session of the calculator that does not ask for full matches, whatever it has parsed. -/
def prefixSession (before : String) (m : Machine Action) : Session Action :=
  ⟨grammar, meaning, .default, before, m⟩

/-- The root expression comes to one result only. -/
theorem reads_root_unique {r r' : Result Value} (h : Reads text rootExpression (.start text) r)
    (h' : Reads text rootExpression (.start text) r') : r = r' := by
  let s := prefixSession "" (.start [])
  have hr := (Session.result?_root (s := s) root?_grammar (m := s.startMachine text) rfl rfl).2 h
  have hr' := (Session.result?_root (s := s) root?_grammar (m := s.startMachine text) rfl rfl).2 h'
  exact Option.some.inj (hr.symm.trans hr')

/-- **The calculator takes the longest text of its language**, where it does not ask for full
matches.  Either no text that the input begins with is in the language, and the parse is a mismatch;
or the root expression leaves off right behind the longest one, so that all that follows it is given
back, and the parse has the value that the longest one has on its own. -/
theorem parse_longest (before : String) (m : Machine Action) (input : String) :
    let s := prefixSession before m
    let report := (s.parse input).1
    ((∀ w, w <+: input.toList → ¬ Accepted w) ∧ report.outcome = .mismatch) ∨
    ∃ (w : List Char) (v : Value) (q : Position), LongestPrefix w input.toList ∧
      (Position.start input.toList).Spans w q ∧
      (s.rootAttempt input.toList rootExpression).result? = some (.ok v q) ∧
      report.outcome = .matched v ∧
      (∀ d : Derivation, d.text = w → d.sum.value = v) ∧
      ((session before m).parse (String.ofList w)).1.outcome = .matched v := by
  intro s report
  rcases decided_root input.toList with h | ⟨d, q, hs, h⟩
  · refine .inl ⟨?_, Session.outcome_eq_mismatch (.mismatch root?_grammar h)⟩
    rintro w hw ⟨d, rfl⟩
    obtain ⟨d', q, -, -, h'⟩ := exists_longer_derivation d hw
    cases reads_root_unique h h'
  · refine .inr ⟨d.text, d.sum.value, q, ⟨hs.isPrefix, ⟨d, rfl⟩, ?_⟩, hs, ?_, ?_, ?_, ?_⟩
    · rintro w hw ⟨d', rfl⟩
      obtain ⟨d'', q', hs', hle, h'⟩ := exists_longer_derivation d' hw
      -- what is read ends at one place, so that the texts up to it are the same
      obtain ⟨-, rfl⟩ := Result.ok.inj (reads_root_unique h h')
      rw [← hs.textTo, hs'.textTo]
      exact hle.length_le
    · exact (Session.result?_root (s := s) root?_grammar rfl rfl).2 h
    · exact Session.outcome_eq_matched (.value root?_grammar h nofun)
    · intro d' hd'
      have hyields : (session before m).Yields d.text (.ok (some d'.sum.value)) :=
        yields_derivation d' hd'
      exact Option.some.inj (Except.ok.inj (hyields.unique (yields_derivation d rfl)))
    · refine Session.outcome_eq_matched (yields_derivation d ?_)
      exact String.toList_ofList.symm

/-- Behind a sum, an operator without its operand, a parenthesis that is not closed and a sign alone
are given back. -/
theorem parse_longest_dangling :
    LongestPrefix quotient.text "-6/ (1+2) *(3- -".toList ∧
      ((prefixSession "" (.start [])).parse "-6/ (1+2) *(3- -").1.outcome =
        .matched (.integer (-2)) := by
  have hrest : ∀ g, g = grammar → (((⟨g, meaning, .default, "", .start []⟩ : Session Action)
      |>.rootAttempt "-6/ (1+2) *(3- -".toList rootExpression).result?.map fun
        | .ok _ q => q.rest
        | _ => []) = some "*(3- -".toList := by
    rw [grammar_eq]
    rintro _ rfl
    decide +kernel
  have haccepted : Accepted quotient.text := ⟨quotient, rfl⟩
  rcases parse_longest "" (.start []) "-6/ (1+2) *(3- -" with
    ⟨h, -⟩ | ⟨w, v, q, hw, hs, hq, hv, hvalue, -⟩
  · exact absurd haccepted (h _ ⟨"*(3- -".toList, rfl⟩)
  · have hback : some q.rest = some "*(3- -".toList := by
      have h := hrest grammar rfl
      change ((prefixSession "" (.start [])).rootAttempt _ _).result?.map _ = _ at h
      rwa [hq] at h
    have htext : quotient.text ++ "*(3- -".toList = w ++ q.rest := hs.1
    rw [Option.some.inj hback] at htext
    obtain rfl := List.append_cancel_right htext
    rw [← hvalue quotient rfl] at hv
    exact ⟨hw, hv⟩

end OrderedChoice.Calculator
