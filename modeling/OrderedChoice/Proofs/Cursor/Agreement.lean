import OrderedChoice.Proofs.Backtracking
import OrderedChoice.Proofs.Calls
import OrderedChoice.Proofs.Cursor.Run
import OrderedChoice.Proofs.TextPreservation

/-!
# The cursor stands on boundaries

What the engine over bytes does is what the engine over characters does, as one lemma says of each
of its functions.  As the places of the one are places of the input, the offsets of the other are
boundaries.

* `agrees_matchText` is the step: the widths that are added to the end of a text lead from one
  place of the input to another;
* `agrees_matchExpression` is the run, by induction on how deeply expressions nest;
* `Session.cursor_on_boundary`: a parse by bytes gives the answer, the reports and the calls of the
  parse over characters, misses no slice, and all its offsets are boundaries in order.
-/

namespace OrderedChoice

variable {τ α : Type}

namespace Bytes

variable {input : String} {b : Machine τ} {m : OrderedChoice.Machine τ} {p : Position}

/-! ### Text -/

/-- The widths in bytes are those of the occurrences of a terminal. -/
def Measures (width? : String → Option Nat) (t : Terminal) : Prop :=
  ∀ rest, width? rest = (t.occurrence? rest.toList).map fun n => byteLength (rest.toList.take n)

theorem measures_literal (text : String) :
    Measures (literalWidth? text) (.literal text.toList) := by
  intro rest
  rw [literalWidth?, Terminal.occurrence?, utf8ByteSize_eq]
  by_cases h : text.toList <+: rest.toList
  · have htake : rest.toList.take text.toList.length = text.toList :=
      (List.prefix_iff_eq_take.1 h).symm
    rw [if_pos (startsWith_iff.2 h), if_pos (List.isPrefixOf_iff_prefix.2 h), Option.map_some,
      htake]
  · rw [if_neg fun hs => h (startsWith_iff.1 hs),
      if_neg fun hs => h (List.isPrefixOf_iff_prefix.1 hs), Option.map_none]

theorem measures_pattern (p : Pattern) : Measures (patternWidth? p) (.pattern p) := by
  intro rest
  rw [patternWidth?, firstChar?_eq_head?]
  cases rest.toList with
  | nil => rfl
  | cons c cs =>
    cases hc : p.accepts c with
    | true => simp [Terminal.occurrence?, hc, byteLength]
    | false => simp [Terminal.occurrence?, hc]

section

variable {width? : String → Option Nat} {t : Terminal}

/-- One round of the loop.  It slices the input from the end on, and moves the end to a place
behind one more occurrence. -/
theorem on_takeAll_succ (hw : Measures width? t) (q : Quantifier)
    (hp : (Position.start input.toList).Reaches p) (start bound count : Nat) :
    (takeAll input width? q start (bound + 1) p.offset count).on b =
      match t.occurrence? p.rest with
      | none => (.ok (p.offset, count), b)
      | some n =>
        let b' := b.mark (.running start (p.advance n).offset)
        if n = 0 || !q.isRepeating then (.ok ((p.advance n).offset, count + 1), b')
        else (takeAll input width? q start bound (p.advance n).offset (count + 1)).on b' := by
  have hrest : (String.ofList p.rest).toList = p.rest := String.toList_ofList
  rw [takeAll, slice?_rest hp]
  simp only [present, Run.on_bind, Run.on_pure, hw _, hrest]
  cases ho : t.occurrence? p.rest with
  | none => rfl
  | some n =>
    -- an occurrence takes no bytes only if it has no characters
    have hwidth : byteLength (p.rest.take n) = 0 ↔ n = 0 := by
      have hn := Terminal.length_le_of_occurrence? ho
      rw [Position.byteLength_eq_zero, List.take_eq_nil_iff]
      constructor
      · rintro (h | h)
        · exact h
        · rw [h] at hn
          exact Nat.le_zero.1 hn
      · exact .inl
    have hoffset : p.offset + byteLength (p.rest.take n) = (p.advance n).offset := rfl
    simp only [Option.map_some, Run.on_bind, Run.on_modify, hwidth, hoffset]
    split <;> rfl

/-- **The loop moves the end to a place of the input.**  Repeated, it leads to the end of all
occurrences in a row, if there are more rounds than characters. -/
theorem exists_on_takeAll_repeating (hw : Measures width? t) {q : Quantifier}
    (hq : q.isRepeating = true) {start : Position}
    (hstart : (Position.start input.toList).Reaches start) (h : b.Shows input m)
    (hp : start.Reaches p) {bound k : Nat} (hbound : p.rest.length < bound)
    (hk : p.rest.length ≤ k) (count : Nat) :
    ∃ b' count', (takeAll input width? q start.offset bound p.offset count).on b =
        (.ok ((p.advance (t.occurrences k p.rest)).offset, count'), b') ∧
      count ≤ count' ∧ (t.occurrence? p.rest = none ↔ count' = count) ∧ b'.Shows input m := by
  induction bound generalizing b p k count with
  | zero => omega
  | succ bound ih =>
    rw [on_takeAll_succ hw q (hstart.trans hp)]
    cases ho : t.occurrence? p.rest with
    | none =>
      have hnone : t.occurrences k p.rest = 0 := by
        cases k <;> simp [Terminal.occurrences, ho]
      rw [hnone, Position.advance_zero]
      exact ⟨b, count, rfl, Nat.le_refl _, iff_of_true rfl rfl, h⟩
    | some n =>
      have hreach : p.Reaches (p.advance n) := ⟨_, p.spans_advance n⟩
      have hmark : (b.mark (.running start.offset (p.advance n).offset)).Shows input m :=
        h.mark (isSound_of_reaches hstart (hp.trans hreach) rfl rfl)
      by_cases hn : n = 0
      · have hempty : t.occurrences k p.rest = 0 := by
          cases k <;> simp [Terminal.occurrences, ho, hn]
        rw [hempty, hn]
        exact ⟨_, count + 1, rfl, Nat.le_succ _, by simp, hn ▸ hmark⟩
      · -- what is left is shorter, so that the rounds that are left suffice for it
        have hle := Terminal.length_le_of_occurrence? ho
        have hlength : (p.advance n).rest.length = p.rest.length - n := List.length_drop
        obtain ⟨k, rfl⟩ : ∃ k', k = k' + 1 := ⟨k - 1, by omega⟩
        obtain ⟨b', count', hrun, hcount, -, hb'⟩ := ih hmark (hp.trans hreach) (k := k)
          (by omega) (by omega) (count + 1)
        have hall : t.occurrences (k + 1) p.rest = n + t.occurrences k (p.advance n).rest := by
          simp only [Terminal.occurrences, ho]
          rfl
        rw [hall, ← Position.advance_advance]
        refine ⟨b', count', ?_, by omega, iff_of_false (Option.some_ne_none n) (by omega), hb'⟩
        simp [hn, hq, hrun]

/-- The loop leads to the end of what the terminal takes, and counts nothing only if there is no
occurrence. -/
theorem exists_on_takeAll (hw : Measures width? t) (q : Quantifier) (h : b.Shows input m) :
    ∃ b' count, (takeAll input width? q m.position.offset (input.utf8ByteSize + 1)
        m.position.offset 0).on b =
          (.ok ((m.position.advance ((t.taken? q m.position.rest).getD 0)).offset, count), b') ∧
      (t.occurrence? m.position.rest = none ↔ count = 0) ∧ b'.Shows input m := by
  have hstart := h.reaches
  cases hq : q.isRepeating with
  | true =>
    obtain ⟨b', count, hrun, -, hnone, hb'⟩ := exists_on_takeAll_repeating hw hq hstart h
      (.refl _) (Nat.lt_succ_of_le (length_rest_le hstart)) (Nat.le_refl _) 0
    have htaken : (t.taken? q m.position.rest).getD 0 =
        t.occurrences m.position.rest.length m.position.rest := by
      unfold Terminal.taken?
      cases ho : t.occurrence? m.position.rest with
      | none =>
        cases q.allowsNone <;> cases m.position.rest.length <;> simp [Terminal.occurrences, ho]
      | some n => simp [hq]
    rw [htaken]
    exact ⟨b', count, hrun, hnone, hb'⟩
  | false =>
    rw [on_takeAll_succ hw q hstart]
    unfold Terminal.taken?
    cases ho : t.occurrence? m.position.rest with
    | none =>
      have hzero : ((if q.allowsNone then some 0 else none : Option Nat).getD 0) = 0 := by
        cases q.allowsNone <;> rfl
      simp only [hzero, Position.advance_zero]
      exact ⟨b, 0, rfl, by simp, h⟩
    | some n =>
      refine ⟨b.mark (.running m.position.offset (m.position.advance n).offset), 1, by simp [hq],
        by simp, h.mark ?_⟩
      exact isSound_of_reaches hstart ⟨_, m.position.spans_advance n⟩ rfl rfl

/-- What is done with text is done over bytes as over characters. -/
theorem agrees_matchText (hw : Measures width? t) (q : Quantifier) (h : b.Shows input m) :
    Agrees input ((matchText input width? q).on b) (matchTerminal t q m) := by
  obtain ⟨b', count, hrun, hcount, hb'⟩ := exists_on_takeAll hw q h
  unfold matchText
  simp only [Run.on_bind, Run.on_get, h.cursor_eq, hrun]
  by_cases ho : t.occurrence? m.position.rest = none
  · obtain rfl := hcount.1 ho
    simp only [matchTerminal, Terminal.taken?, ho]
    cases q.allowsNone with
    | false => exact hb'.agrees .mismatch
    | true =>
      simp only [if_true, Position.advance_zero]
      exact hb'.agrees (.matched (Value.string ""))
  · obtain ⟨n, htaken⟩ : ∃ n, t.taken? q m.position.rest = some n := by
      obtain ⟨n, hn⟩ := Option.ne_none_iff_exists'.1 ho
      exact ⟨_, by rw [Terminal.taken?, hn]⟩
    have hspan := m.position.spans_advance n
    rw [if_neg fun hzero => ho (hcount.2 hzero)]
    simp only [matchTerminal, htaken, Option.getD_some, Run.on_bind, Run.on_modify,
      (hspan.isCut h.reaches).slice?_eq]
    exact (hb'.moveTo (h.reaches.trans ⟨_, hspan⟩)).agrees (.matched _)

end

-- with the number of characters for their width, the end would be looked for within a letter
example : ((matchText "é" (fun _ => some 1) .one).on (@Machine.start Empty)).1 =
    .error (.missingSlice 0 1) := rfl

/-! ### References -/

section

variable {call : Run τ (Option Value)} {one : OrderedChoice.Machine τ → Attempt τ Value}
  (hone : ∀ {b m}, b.Shows input m → Agrees input (call.on b) (one m))
  (hexact : ∀ m, (one m).Exact m.position m.depth)
include hone hexact

/-- Each round that is followed by another leaves less text, so that both bounds suffice. -/
theorem agrees_matchRepeatedly {bound bound' : Nat} (h : b.Shows input m)
    (hbound : m.position.rest.length < bound) (hbound' : m.position.rest.length < bound') :
    Agrees input (((matchRepeatedly call bound).on b).1.map some,
      ((matchRepeatedly call bound).on b).2) (OrderedChoice.matchRepeatedly one bound' m) := by
  induction bound generalizing bound' b m with
  | zero => omega
  | succ bound ih =>
    obtain ⟨bound', rfl⟩ : ∃ n, bound' = n + 1 := ⟨bound' - 1, by omega⟩
    obtain ⟨o, b', m', hy, hr, hm⟩ := (hone h).exists_eq
    have hx := hexact m
    unfold matchRepeatedly OrderedChoice.matchRepeatedly
    rw [hr] at hx ⊢
    simp only [Run.on_bind, Run.on_get, hy]
    cases o with
    | mismatch => exact hm.agrees (.matched [])
    | error e => exact hm.agrees (.error e)
    | endless => exact hm.agrees .endless
    | matched v =>
      have hcursor : b'.cursor = b.cursor ↔ m'.cursor = m.cursor := by
        rw [hm.cursor_eq, h.cursor_eq, OrderedChoice.Machine.cursor, OrderedChoice.Machine.cursor]
      simp only [answer, Run.on_bind, Run.on_get, hcursor]
      by_cases hmoves : m'.cursor = m.cursor
      · rw [if_pos hmoves, if_pos hmoves]
        exact hm.agrees (.matched [v])
      · rw [if_neg hmoves, if_neg hmoves]
        have hlt : m'.position.rest.length < m.position.rest.length := hx.1.length_lt hmoves
        have hrest : Agrees input _ (OrderedChoice.matchRepeatedly one bound' m') :=
          ih hm (by omega) (by omega)
        rcases hrest.exists_eq_of_some with
          ⟨vs, b'', m'', hy', hr', hm'⟩ | ⟨stop, b'', hy', hstop⟩
        · simp only [Run.on_bind, hy', hr']
          exact hm'.agrees (.matched (v :: vs))
        · simp only [Run.on_bind, hy']
          exact hstop _

theorem agrees_matchAll (allowsNone : Bool) (h : b.Shows input m) :
    Agrees input ((matchAll input call allowsNone).on b)
      ((OrderedChoice.matchRepeatedly one (m.position.rest.length + 1) m).andThen fun vs m' =>
        if vs.isEmpty && !allowsNone then ⟨.mismatch, m'.moveTo m.position⟩
        else ⟨.matched (.list vs), m'⟩) := by
  unfold matchAll
  simp only [Run.on_bind, Run.on_get]
  rcases (agrees_matchRepeatedly hone hexact h (Nat.lt_succ_of_le (length_rest_le h.reaches))
      (Nat.lt_succ_self _)).exists_eq_of_some with
    ⟨vs, b', m', hy, hr, hm⟩ | ⟨stop, b', hy, hstop⟩
  · rw [hy, hr, h.cursor_eq, Attempt.andThen_matched]
    by_cases hnone : (vs.isEmpty && !allowsNone) = true
    · simp only [if_pos hnone]
      exact (hm.moveTo h.reaches).agrees .mismatch
    · simp only [if_neg hnone]
      exact hm.agrees (.matched (Value.list vs))
  · rw [hy]
    exact hstop _

theorem agrees_matchReference (q : Quantifier) (h : b.Shows input m) :
    Agrees input ((matchReference input call q).on b) (matchQuantified one q m) := by
  cases q with
  | one => exact hone h
  | optional =>
    exact (hone h).orElse (fun _ _ => rfl) fun hm => hm.agrees (.matched (Value.string ""))
  | zeroOrMore => exact agrees_matchAll hone hexact true h
  | oneOrMore => exact agrees_matchAll hone hexact false h

end

/-! ### Contexts -/

theorem place?_eq (hp : (Position.start input.toList).Reaches p) :
    place? input p.offset = some p := by
  rw [place?, slice?_rest hp, Option.map_some, String.toList_ofList]

/-- Nothing that a transform sees of the input is missing. -/
theorem characters?_ofPlaces {c : OrderedChoice.Context τ} (hinput : c.input = input.toList)
    (hstart : (Position.start input.toList).Reaches c.start) (hstop : c.start.Reaches c.stop) :
    (Context.ofPlaces input c).matchedText? = some c.matchedText ∧
      (Context.ofPlaces input c).characters? = some c := by
  obtain ⟨g, e, rule, text, p, q⟩ := c
  obtain rfl : text = input.toList := hinput
  have hmatched : (Context.ofPlaces input ⟨g, e, rule, input.toList, p, q⟩).matchedText? =
      some (String.ofList (p.textTo q)) := (hstart.isCut hstop).slice?_eq
  refine ⟨hmatched, ?_⟩
  rw [Context.characters?, hmatched]
  simp only [Context.ofPlaces, place?_eq hstart, place?_eq (hstart.trans hstop)]
  rfl

/-! ### The engine -/

/-- The setting of the parse over characters. -/
def Setting.characters (s : Setting τ) : OrderedChoice.Setting τ :=
  ⟨s.meaning, s.limit, s.input.toList⟩

section

variable {s : Setting τ} {call : Matcher τ} {call' : OrderedChoice.Matcher τ}
  (hcall : ∀ g e {b m}, b.Shows s.input m → Agrees s.input ((call g e).on b) (call' g e m))
  (hexact : call'.Exact) (g : Grammar τ) (e : Expression τ)
include hcall hexact

theorem agrees_matchKind (x : Symbol) (h : b.Shows s.input m) :
    Agrees s.input ((matchKind s call g e x).on b) (OrderedChoice.matchKind call' g e x m) := by
  unfold matchKind OrderedChoice.matchKind
  cases x.kind with
  | literal text => exact agrees_matchText (measures_literal text) _ h
  | pattern p => exact agrees_matchText (measures_pattern p) _ h
  | reference r =>
    dsimp only
    cases g.resolve r e.name with
    | ok target => exact agrees_matchReference (hcall target.1 target.2) (hexact _ _) _ h
    | error err => exact h.agrees_fail err

theorem agrees_matchSymbol (x : Symbol) (h : b.Shows s.input m) :
    Agrees s.input ((matchSymbol s call g e x).on b) (OrderedChoice.matchSymbol call' g e x m) := by
  obtain ⟨o, b', m', hy, hr, hm⟩ := (agrees_matchKind hcall hexact g e x h).exists_eq
  unfold matchSymbol OrderedChoice.matchSymbol
  simp only [Run.on_bind, hy, hr]
  cases o with
  | matched v => exact (hm.reportCursor (.symbolTried x true)).agrees (.matched v)
  | mismatch => exact (hm.reportCursor (.symbolTried x false)).agrees .mismatch
  | error err => exact hm.agrees (.error err)
  | endless => exact hm.agrees .endless

/-- The argument of a symbol is what the lookahead makes of it, unless the rule is given up. -/
theorem agrees_matchArgument (rule : Rule τ) {start : Position}
    (hstart : (Position.start s.input.toList).Reaches start) (x : Symbol) (h : b.Shows s.input m) :
    Agrees s.input ((matchArgument s call g e rule start.offset x).on b)
      ((applyLookahead x.lookahead m.position
        (OrderedChoice.matchSymbol call' g e x (m.atSymbol x))).orElse fun m' =>
          ⟨.mismatch, giveUp e rule start x m'⟩) := by
  obtain ⟨o, b', m', hy, hr, hm⟩ :=
    (agrees_matchSymbol hcall hexact g e x (h.atSymbol x)).exists_eq
  have hback : (b'.moveTo b.cursor).Shows s.input (m'.moveTo m.position) := by
    rw [h.cursor_eq]
    exact hm.moveTo h.reaches
  have hgive := (hm.reportCursor (.backtrack e.name rule.symbols x · start.offset)).moveTo hstart
  unfold matchArgument applyLookahead
  simp only [Run.on_bind, Run.on_get, Run.on_modify, hy, hr]
  cases o with
  | matched v =>
    cases x.lookahead with
    | consume => exact hm.agrees (.matched v)
    | assert => exact hback.agrees (.matched Value.null)
    | lenient => exact hm.agrees (.matched v)
  | mismatch =>
    cases x.lookahead with
    | consume => exact hgive.agrees .mismatch
    | assert => exact hgive.agrees .mismatch
    | lenient => exact hback.agrees (.matched Value.null)
  | error err => cases x.lookahead <;> exact hm.agrees (.error err)
  | endless => cases x.lookahead <;> exact hm.agrees .endless

theorem agrees_matchSymbols (rule : Rule τ) {start : Position}
    (hstart : (Position.start s.input.toList).Reaches start) (xs : List Symbol)
    (h : b.Shows s.input m) :
    Agrees s.input ((matchSymbols s call g e rule start.offset xs).on b)
      (OrderedChoice.matchSymbols call' g e rule start xs m) := by
  induction xs generalizing b m with
  | nil => exact h.agrees (.matched [])
  | cons x xs ih =>
    refine (agrees_matchArgument hcall hexact g e rule hstart x h).andThen (fun _ hm => ?_)
      fun _ => rfl
    exact (ih hm).andThen (fun _ hm' => hm'.agrees (.matched _)) fun _ => rfl

omit hcall hexact in
/-- A rule that has matched has a value, since its context is cut out of the input. -/
theorem exists_on_ruleValue (args : List Value) (rule : Rule τ) {p q : Position}
    (hp : (Position.start s.input.toList).Reaches p) (hq : p.Reaches q) (h : b.Shows s.input m) :
    let c : OrderedChoice.Context τ := ⟨g, e, rule, s.input.toList, p, q⟩
    ∃ b', (ruleValue s args ⟨g, e, rule, s.input, p.offset, q.offset⟩).on b =
        (.ok (OrderedChoice.ruleValue s.meaning args c), b') ∧
      b'.Shows s.input (recordTransform args c m) := by
  intro c
  obtain ⟨hmatched, hseen⟩ := characters?_ofPlaces (c := c) rfl hp hq
  simp only [Context.ofPlaces, c] at hmatched hseen
  simp only [ruleValue, OrderedChoice.ruleValue, recordTransform, hmatched, hseen, c]
  cases rule.transform with
  | none => exact ⟨b, rfl, h⟩
  | some t => exact ⟨_, rfl, h.recordCall (c := ⟨t, args, c⟩) hp hq⟩

theorem agrees_matchRule (rule : Rule τ) (h : b.Shows s.input m) :
    Agrees s.input ((matchRule s call g e rule).on b)
      (OrderedChoice.matchRule s.characters call' g e rule m) := by
  have hsymbols := agrees_matchSymbols hcall hexact g e rule h.reaches rule.symbols (h.atRule rule)
  have hx : Attempt.Exact m.position m.depth (OrderedChoice.matchSymbols call' g e
      rule m.position rule.symbols (m.atRule rule)) :=
    exact_matchSymbols hexact rule rule.symbols (m.atRule rule) (.refl _)
  unfold matchRule OrderedChoice.matchRule
  simp only [Run.on_get_bind, Run.on_modify_bind, h.cursor_eq]
  refine hsymbols.andThen (fun {args b' m'} hr hm => ?_) fun _ => rfl
  rw [hr] at hx
  have hstop : m.position.Reaches m'.position := hx.1
  have hspan := hm.mark (k := .span m.position.offset m'.position.offset)
    (isSound_of_reaches h.reaches hstop rfl rfl)
  obtain ⟨b'', hvalue, hb''⟩ := exists_on_ruleValue g e args rule h.reaches hstop hspan
  simp only [Run.on_get_bind, Run.on_modify_bind, hm.cursor_eq]
  rw [Run.on_bind, hvalue]
  exact (hb''.report _).agrees (.matched _)

theorem agrees_matchRules (rules : List (Rule τ)) (h : b.Shows s.input m) :
    Agrees s.input ((matchRules s call g e rules).on b)
      (OrderedChoice.matchRules s.characters call' g e rules m) := by
  induction rules generalizing b m with
  | nil => exact h.agrees .mismatch
  | cons rule rules ih =>
    exact (agrees_matchRule hcall hexact g e rule h).orElse (fun _ _ => rfl) fun hm => ih hm

theorem agrees_matchInside (h : b.Shows s.input m) :
    Agrees s.input ((matchInside s call g e).on b.descend)
      (OrderedChoice.matchInside s.characters call' g e m) := by
  have hrules := (agrees_matchRules hcall hexact g e e.rules (h.enter e)).orElse
    (k := fun result => do
      if result.isNone then modify fun m => m.report (.noRuleMatched e.name g.name m.cursor)
      pure result)
    (fun _ _ => rfl) fun hm => (hm.reportCursor (.noRuleMatched e.name g.name)).agrees .mismatch
  have hfocus : b.descend.focus = m.focus := h.focus_eq
  unfold matchInside OrderedChoice.matchInside
  simp only [Run.on_get_bind, Run.on_modify_bind, Run.on_finally, hfocus]
  exact ⟨hrules.1, hrules.2.leave m.focus⟩

end

/-- **The engine over bytes does what the engine over characters does.**  It misses no slice, and
all that it holds are the ends of slices. -/
theorem agrees_matchExpression (s : Setting τ) (bound : Nat) (g : Grammar τ) (e : Expression τ)
    {b : Machine τ} {m : OrderedChoice.Machine τ} (h : b.Shows s.input m) :
    Agrees s.input ((matchExpression s bound g e).on b)
      (OrderedChoice.matchExpression s.characters bound g e m) := by
  induction bound generalizing g e b m with
  | zero => exact h.agrees .endless
  | succ bound ih =>
    have hinside := agrees_matchInside (fun g e => ih g e)
      (exact_matchExpression s.characters bound) g e h
    have hdepth : b.descend.depth = m.depth + 1 := h.descend.depth_eq
    unfold matchExpression OrderedChoice.matchExpression
    simp only [Run.on_bind, Run.on_modify]
    have hlimit : s.characters.limit = s.limit := rfl
    rw [hlimit]
    cases s.limit with
    | none => exact hinside
    | some limit =>
      simp only [Run.on_bind, Run.on_get, hdepth]
      by_cases hdeep : limit < m.depth + 1
      · rw [if_pos hdeep, if_pos hdeep]
        exact h.descend.agrees (.error (.depthExceeded limit e.name))
      · rw [if_neg hdeep, if_neg hdeep]
        exact hinside

/-! ### Logs -/

theorem eventsOf_ofPlaces (input : String) (log : List (OrderedChoice.Entry τ)) :
    eventsOf (log.map (Entry.ofPlaces input)) = OrderedChoice.eventsOf log := by
  rw [eventsOf, OrderedChoice.eventsOf, ← List.map_reverse, List.filterMap_map]
  refine List.filterMap_congr fun entry _ => ?_
  cases entry <;> rfl

theorem callsOf_ofPlaces (input : String) (log : List (OrderedChoice.Entry τ)) :
    callsOf (log.map (Entry.ofPlaces input)) =
      (OrderedChoice.callsOf log).map (Call.ofPlaces input) := by
  rw [callsOf, OrderedChoice.callsOf, ← List.map_reverse, List.filterMap_map, List.map_filterMap]
  refine List.filterMap_congr fun entry _ => ?_
  cases entry <;> rfl

theorem answer_ne_missingSlice (o : Outcome α) (i j : Nat) :
    answer o ≠ .error (.missingSlice i j) := by
  intro h
  cases o <;> cases h

theorem isMatch_answer (o : Outcome α) : isMatch (answer o) = o.isMatch := by
  cases o <;> rfl

end Bytes

/-! ### Parses -/

namespace Session

variable {input : String}

theorem agrees_matchRootBytes (s : Session τ) {b : Bytes.Machine τ} {m : Machine τ}
    (h : b.Shows input m) :
    Bytes.Agrees input ((s.matchRootBytes input).on b) (s.matchRoot input.toList m) := by
  unfold matchRootBytes matchRoot
  cases s.grammar.root? with
  | none => exact h.agrees_fail (.missingRoot s.grammar.name)
  | some e =>
    have hexpression := Bytes.agrees_matchExpression
      ⟨s.meaning, s.config.maxDepth.map (·.toNat), input⟩
      (nestingBound s.grammar s.config input.toList) s.grammar e h
    refine hexpression.andThen (fun {v b' m'} _ hm => ?_) fun b' => ?_
    · have hcursor : b'.cursor = m'.cursor := hm.cursor_eq
      simp only [Bytes.Run.on_get_bind, hcursor, Bytes.utf8ByteSize_eq, Option.isSome_some,
        Bool.and_true]
      split
      · exact (hm.report _).agrees .mismatch
      · exact hm.agrees (.matched v)
    · simp only [Bytes.Run.on_get_bind, Option.isSome_none, Bool.and_false, Bool.false_and]
      rfl

/-- What a parse by bytes leaves, beside what the parse over characters leaves. -/
theorem exists_parseBytes_eq (s : Session τ) (input : String) :
    ∃ (b : Bytes.Machine τ) (m : Machine τ), b.Shows input m ∧
      s.parseBytes input = ⟨Bytes.answer (s.parse input).1.outcome, b.log, b.marks⟩ ∧
      (s.parse input).1.log = m.log := by
  have hstart : Bytes.Machine.start.Shows input (Machine.start input.toList : Machine τ) := {
    reaches := .refl _
    cursor_eq := rfl
    depth_eq := rfl
    focus_eq := rfl
    log_eq := rfl
    calls := fun c hc => by cases hc
    marks := fun k hk => by
      obtain rfl := List.mem_singleton.1 hk
      exact Bytes.isSound_of_reaches (.refl _) (.refl _) rfl rfl }
  obtain ⟨o, b, m, hy, hr, hm⟩ := (s.agrees_matchRootBytes
    (hstart.report (.parseStarted s.grammar.name (byteLength input.toList)))).exists_eq
  refine ⟨b.report (.parseFinished o.isMatch b.cursor),
    m.report (.parseFinished o.isMatch m.cursor), hm.reportCursor (.parseFinished o.isMatch), ?_, ?_⟩
  · simp only [parseBytes, parse, Bytes.utf8ByteSize_eq, hy, hr, Bytes.isMatch_answer]
  · simp only [parse, hr]

/-- **The cursor stands on boundaries**, whatever a parse comes to.  A parse by bytes misses no
slice: it gives the answer of the parse over characters, with the same reports and calls.  The
offsets at which the cursor was put, those between which the end of a text has moved, and both ends
of what a rule has matched are in order, not behind the end of the input, and between characters;
what is cut out of the input between them is there, and is the text that the context of a rule
tells. -/
theorem cursor_on_boundary (s : Session τ) (input : String) :
    let run := s.parseBytes input
    let report := (s.parse input).1
    run.answer = Bytes.answer report.outcome ∧
    (∀ i j, run.answer ≠ .error (.missingSlice i j)) ∧
    (∀ k ∈ run.marks, ∃ text, IsCut input k.start k.stop text) ∧
    Bytes.eventsOf run.log = eventsOf report.log ∧
    Bytes.callsOf run.log = (callsOf report.log).map (Bytes.Call.ofPlaces input) ∧
    ∀ c ∈ callsOf report.log,
      IsCut input c.context.start.offset c.context.stop.offset c.context.matchedText := by
  intro run report
  obtain ⟨b, m, hm, hrun, hlog⟩ := s.exists_parseBytes_eq input
  have hbytes : run.log = report.log.map (Bytes.Entry.ofPlaces input) := by
    simp only [run, report, hrun, hlog]
    exact hm.log_eq
  have hanswer : run.answer = Bytes.answer report.outcome := by simp only [run, report, hrun]
  refine ⟨hanswer, fun i j => ?_, ?_, ?_, ?_, fun c hc => ?_⟩
  · rw [hanswer]
    exact Bytes.answer_ne_missingSlice _ i j
  · simp only [run, hrun]
    exact hm.marks
  · rw [hbytes, Bytes.eventsOf_ofPlaces]
  · rw [hbytes, Bytes.callsOf_ofPlaces]
  · rw [mem_callsOf, hlog] at hc
    obtain ⟨hstart, hstop⟩ := hm.calls c hc
    exact hstart.isCut hstop

/-- An accented letter takes two bytes, and the cursor is never put between them. -/
theorem cursor_on_boundary_accents :
    let run := (Session.new accentGrammar Transform.apply .default).parseBytes "ébé"
    (∃ c, (Bytes.callsOf run.log)[1]? = some c ∧ c.context.start = 3 ∧ c.context.stop = 5 ∧
      c.context.matchedText? = some "é") ∧ ∀ k ∈ run.marks, k.start ≠ 4 ∧ k.stop ≠ 4 := by
  intro run
  let s := Session.new accentGrammar Transform.apply .default
  obtain ⟨-, -, hmarks, -, hcalls, hcut⟩ := cursor_on_boundary s "ébé"
  obtain ⟨c, hc, hstart, hstop, htext⟩ : ∃ c, (callsOf (s.parse "ébé").1.log)[1]? = some c ∧
      c.context.start.offset = 3 ∧ c.context.stop.offset = 5 ∧ c.context.matchedText = "é" :=
    ⟨_, rfl, rfl, rfl, rfl⟩
  have hbetween : ¬ IsBoundary "ébé" 4 := by decide
  refine ⟨⟨.ofPlaces "ébé" c, ?_, hstart, hstop, ?_⟩, fun k hk => ?_⟩
  · rw [hcalls, List.getElem?_map, hc]
    rfl
  · rw [← htext]
    exact (hcut c (List.mem_of_getElem? hc)).slice?_eq
  · obtain ⟨text, h⟩ := hmarks k hk
    exact ⟨fun h4 => hbetween (h4 ▸ h.isBoundary_start),
      fun h4 => hbetween (h4 ▸ h.isBoundary_stop)⟩

end Session

end OrderedChoice
