import OrderedChoice.Proofs.Calculator.Values

/-!
# The calculator reads its language

* `Tree.reads`: whatever derivation a text has, the expression of its nonterminal matches it up to
  its end, and comes to its value;
* `decided_sum`: at every place the expression of sums either fails or matches a text that has a
  derivation, and comes to its value.

In the first direction the induction is on the derivation.  A chain is matched from the left while
its derivation has the last operation outside, so what is proved of a chain is how it goes on with
operations that are already matched behind it.  In the second direction the induction is on the
length of the text behind a place, which a sum in parentheses is behind.
-/

namespace OrderedChoice.Calculator

variable {text : List Char}

/-! ### Derivations are read -/

/-- A text with this derivation is matched up to its end; for a chain, also with the operations
that follow it. -/
def Tree.IsRead (text : List Char) : {n : Nonterminal} → Tree n → Prop
  | .factor, t => ∀ p q : Position, p.Spans t.text q → Ends .factor q.rest →
      Reads text Nonterminal.factor.expression p (.ok t.value q)
  | .chain r, t => ∀ p k : Position, p.Spans t.text k → Ends r.operand k.rest →
      ∀ vs q, ReadsTails text r k (.ok vs q) →
        Reads text (Nonterminal.chain r).expression p
          (.ok (result (applyOperations (t.value?.map Int64.ofInt) vs)) q)

theorem readsTails_end {r : Rank} {q : Position} (h : NoOperator r q.rest) :
    ReadsTails text r q (.ok [] q) := by
  obtain ⟨b, q', hb, hq'⟩ := exists_blanks q
  refine .repeatEnd (reads_no_tail_of_operator hb hq' ?_)
  rwa [NoOperator, hb.1, dropWhile_blanks b hq'] at h

theorem Tree.IsRead.reads {n : Nonterminal} {t : Tree n} (h : t.IsRead text) {p q : Position}
    (hs : p.Spans t.text q) (hq : Ends n q.rest) : Reads text n.expression p (.ok t.value q) := by
  cases n with
  | factor => exact h p q hs hq
  | chain r =>
    obtain ⟨hq, hno⟩ := (ends_chain r q.rest).1 hq
    have hchain := h p q hs hq [] q (readsTails_end hno)
    rwa [applyOperations, result_map] at hchain

theorem isRead_number (negative : Bool) (digits : Digits) :
    (Tree.number negative digits).IsRead text := by
  intro p q hs hq
  obtain ⟨m, hsign, hdigits⟩ := Position.Spans.split hs
  have hrest : ∀ {c}, digit.accepts c = false → NoHead (· == c) m.rest := by
    intro c hc
    rw [hdigits.1]
    exact digits.noHead hc q.rest
  have hopen : NoHead (· == '(') p.rest := by
    rw [hsign.1]
    cases negative with
    | true => exact noHead_cons.2 (by decide)
    | false => exact hrest (accepts_mark (by decide)).2
  have hminus : negative = false → NoHead (· == '-') p.rest := by
    rintro rfl
    rw [hsign.1]
    exact hrest (accepts_mark (by decide)).2
  rw [← compute_number]
  exact reads_factor_number (no_paren_of_open hopen) (reads_number digits hsign hminus hdigits hq)

/-- A sum in parentheses is read whatever is behind it. -/
theorem reads_parenthesized {before after : Blanks} {sum : Tree (.chain .additive)}
    (ih : sum.IsRead text) {p q : Position} (hs : p.Spans (Tree.paren before sum after).text q) :
    Reads text Nonterminal.factor.expression p (.ok (Tree.paren before sum after).value q) := by
  obtain ⟨p₁, hopen, hs⟩ := Position.Spans.uncons hs
  obtain ⟨p₂, hbefore, hs⟩ := hs.split
  obtain ⟨p₃, hsum, hs⟩ := hs.split
  obtain ⟨p₄, hafter, hclose⟩ := hs.split
  have hp₂ : NoHead blank.accepts p₂.rest := by
    rw [hsum.1]
    exact sum.noHead_blank p₃.rest
  have hp₃ : Ends (.chain .additive) p₃.rest := by
    rw [hafter.1, hclose.1]
    exact ends_closing after q.rest
  have hp₄ : NoHead blank.accepts p₄.rest := by
    rw [hclose.1]
    exact noHead_cons.2 (accepts_mark (by decide)).1
  exact reads_paren hopen hbefore hp₂ (ih.reads hsum hp₃) hafter hp₄ hclose

theorem isRead_paren {before after : Blanks} {sum : Tree (.chain .additive)}
    (ih : sum.IsRead text) : (Tree.paren before sum after).IsRead text :=
  fun _ _ hs _ => reads_parenthesized ih hs

/-- A chain goes on from its first operand with the operations that follow. -/
theorem reads_operand_tails {r : Rank} {t : Tree r.operand} {p k q : Position} {vs : List Value}
    (h : Reads text r.operand.expression p (.ok t.value k)) (hvs : ReadsTails text r k (.ok vs q)) :
    Reads text (Nonterminal.chain r).expression p
      (.ok (result (applyOperations ((Tree.operand t).value?.map Int64.ofInt) vs)) q) := by
  have hchain := reads_chain h hvs
  rwa [compute, List.getD_cons_zero, List.getD_cons_succ, List.getD_cons_zero, Tree.value,
    asInteger?_toValue] at hchain

theorem isRead_operand {r : Rank} {t : Tree r.operand} (ih : t.IsRead text) :
    (Tree.operand t).IsRead text :=
  fun _ _ hs hk _ _ hvs => reads_operand_tails (ih.reads hs hk) hvs

/-- Behind an operator there is a place for the operand, and the operation is read as far as the
operand is read from there. -/
theorem exists_operand_place {r : Rank} {before after : Blanks} {op : Operator r}
    {right : Tree r.operand} {p k : Position}
    (hs : p.Spans (before.chars ++ (op.char :: (after.chars ++ right.text))) k) :
    ∃ m, p.Spans (before.chars ++ ([op.char] ++ after.chars)) m ∧ m.Spans right.text k ∧
      ∀ {v k'}, Reads text r.operand.expression m (.ok v k') →
        Reads text (tailExpression r) p (.ok (.list [.ofChars [op.char], v]) k') := by
  obtain ⟨p₁, hbefore, hs⟩ := hs.split
  obtain ⟨p₂, hop, hs⟩ := hs.uncons
  obtain ⟨m, hafter, hright⟩ := hs.split
  have hp₁ : NoHead blank.accepts p₁.rest := by
    rw [hop.1]
    exact noHead_cons.2 (accepts_operator op.mem).1
  have hm : NoHead blank.accepts m.rest := by
    rw [hright.1]
    exact right.noHead_blank k.rest
  exact ⟨m, hbefore.trans (hop.trans hafter), hright,
    fun h => reads_tail hbefore hp₁ op hop hafter hm h⟩

/-- The operator is between the two places, so a repetition goes on. -/
theorem offset_ne_of_operation {r : Rank} {before after : Blanks} {op : Operator r}
    {right : Tree r.operand} {p k : Position}
    (hs : p.Spans (before.chars ++ (op.char :: (after.chars ++ right.text))) k) :
    k.offset ≠ p.offset := by
  intro ho
  have hnil := hs.offset_eq_iff.1 ho
  simp at hnil

theorem isRead_operation {r : Rank} {left : Tree (.chain r)} {before after : Blanks}
    {op : Operator r} {right : Tree r.operand} (ihl : left.IsRead text)
    (ihr : right.IsRead text) : (Tree.operation left before op after right).IsRead text := by
  intro p k hs hk vs q hvs
  obtain ⟨p₀, hleft, hs⟩ := Position.Spans.split hs
  have hp₀ : Ends r.operand p₀.rest := by
    rw [hs.1, List.append_assoc]
    exact ends_operator before op _
  obtain ⟨m, -, hright, htail⟩ := exists_operand_place hs
  have hchain := ihl p p₀ hleft hp₀ _ q
    (.repeatOn (htail (ihr.reads hright hk)) (offset_ne_of_operation hs) hvs)
  rwa [applyOperations_cons left before op after right vs] at hchain

/-- **Every derivation is read**, and comes to its value. -/
theorem Tree.isRead {n : Nonterminal} (t : Tree n) : t.IsRead text := by
  induction t with
  | number negative digits => exact isRead_number negative digits
  | paren _ _ _ ih => exact isRead_paren ih
  | operand _ ih => exact isRead_operand ih
  | operation _ _ _ _ _ ihl ihr => exact isRead_operation ihl ihr

/-! ### What is read has a derivation -/

/-- At a place, the expression of a nonterminal fails or matches a text with a derivation. -/
def Decided (text : List Char) (n : Nonterminal) (p : Position) : Prop :=
  Reads text n.expression p .fail ∨
    ∃ (t : Tree n) (q : Position), p.Spans t.text q ∧ Reads text n.expression p (.ok t.value q)

theorem read_number (text : List Char) (p : Position) :
    Reads text numberExpression p .fail ∨ ∃ (negative : Bool) (digits : Digits) (q : Position),
      p.Spans (signText negative ++ digits.chars) q ∧
        Reads text numberExpression p (.ok (Tree.number negative digits).value q) := by
  obtain ⟨negative, m, hsign, hminus⟩ : ∃ (negative : Bool) (m : Position),
      p.Spans (signText negative) m ∧ (negative = false → NoHead (· == '-') p.rest) := by
    rcases p.noHead_or (· == '-') with h | ⟨c, m, hc, hs⟩
    · exact ⟨false, p, .refl p, fun _ => h⟩
    · obtain rfl := beq_iff_eq.1 hc
      exact ⟨true, m, hs, nofun⟩
  obtain ⟨cs, q, hs, hcs, hq⟩ := m.exists_run digit.accepts
  -- without a digit a sign alone is no number
  by_cases hne : cs = []
  · obtain rfl := hne
    obtain rfl := hs.right_unique (.refl m)
    exact .inl (reads_no_number hsign hminus hq)
  · let digits : Digits := ⟨cs, hne, hcs⟩
    refine .inr ⟨negative, digits, q, hsign.trans hs, ?_⟩
    rw [← compute_number]
    exact reads_number digits hsign hminus hs hq

theorem decided_of_no_paren {p : Position}
    (hno : ReadsAll text factorExpression parenSymbols p .fail) : Decided text .factor p := by
  rcases read_number text p with h | ⟨negative, digits, q, hs, h⟩
  · exact .inl (reads_no_factor hno h)
  · exact .inr ⟨.number negative digits, q, hs, reads_factor_number hno h⟩

theorem decided_factor {p : Position}
    (hsum : ∀ p' : Position, p'.rest.length < p.rest.length → Decided text (.chain .additive) p') :
    Decided text .factor p := by
  rcases p.noHead_or (· == '(') with h | ⟨c, p₁, hc, hp₁⟩
  · exact decided_of_no_paren (no_paren_of_open h)
  obtain rfl := beq_iff_eq.1 hc
  obtain ⟨before, p₂, hbefore, hp₂⟩ := exists_blanks p₁
  have hlt : p₂.rest.length < p.rest.length := by
    rw [hp₁.1, hbefore.1, List.length_append, List.length_append, List.length_singleton]
    omega
  -- where the parentheses are not completed, the factor is decided as a number
  rcases hsum p₂ hlt with h | ⟨sum, p₃, hs, h⟩
  · exact decided_of_no_paren (no_paren_of_sum hp₁ hbefore hp₂ h)
  obtain ⟨after, p₄, hafter, hp₄⟩ := exists_blanks p₃
  rcases p₄.noHead_or (· == ')') with hno | ⟨c, q, hc, hq⟩
  · exact decided_of_no_paren (no_paren_of_close hp₁ hbefore hp₂ h hafter hp₄ hno)
  obtain rfl := beq_iff_eq.1 hc
  refine .inr ⟨.paren before sum after, q, ?_, reads_paren hp₁ hbefore hp₂ h hafter hp₄ hq⟩
  exact hp₁.trans (hbefore.trans (hs.trans (hafter.trans hq)))

/-- An operator and its operand, behind a place where operands are decided. -/
theorem read_tail {r : Rank} {p : Position}
    (hop : ∀ p' : Position, p'.rest.length ≤ p.rest.length → Decided text r.operand p') :
    Reads text (tailExpression r) p .fail ∨
      ∃ (before : Blanks) (op : Operator r) (after : Blanks) (right : Tree r.operand)
        (q : Position),
        p.Spans (before.chars ++ (op.char :: (after.chars ++ right.text))) q ∧
          Reads text (tailExpression r) p (.ok (.list [.ofChars [op.char], right.value]) q) := by
  obtain ⟨before, p₁, hbefore, hp₁⟩ := exists_blanks p
  rcases p₁.noHead_or fun c => r.operators.contains c with hno | ⟨c, p₂, hc, hp₂⟩
  · exact .inl (reads_no_tail_of_operator hbefore hp₁ hno)
  let op : Operator r := ⟨c, List.contains_iff_mem.1 hc⟩
  obtain ⟨after, p₃, hafter, hp₃⟩ := exists_blanks p₂
  have hle : p₃.rest.length ≤ p.rest.length := by
    rw [hbefore.1, hp₂.1, hafter.1]
    simp only [List.length_append]
    omega
  rcases hop p₃ hle with h | ⟨right, q, hs, h⟩
  · exact .inl (reads_no_tail_of_operand hbefore hp₁ op hp₂ hafter hp₃ h)
  refine .inr ⟨before, op, after, right, q, ?_, reads_tail hbefore hp₁ op hp₂ hafter hp₃ h⟩
  exact hbefore.trans (hp₂.trans (hafter.trans hs))

/-- All operations that follow a chain make it a longer one. -/
theorem read_tails {r : Rank} (n : Nat)
    (hop : ∀ p' : Position, p'.rest.length ≤ n → Decided text r.operand p') (p : Position)
    (hp : p.rest.length ≤ n) (left : Tree (.chain r)) :
    ∃ (vs : List Value) (w : List Char) (q : Position) (t : Tree (.chain r)),
      p.Spans w q ∧ t.text = left.text ++ w ∧ ReadsTails text r p (.ok vs q) ∧
        result (applyOperations (left.value?.map Int64.ofInt) vs) = t.value := by
  -- each operation moves on, and makes the chain longer that the next one is applied to
  induction hlen : p.rest.length using Nat.strongRecOn generalizing p left with
  | ind k ih =>
    subst hlen
    rcases read_tail (p := p) fun p' h => hop p' (Nat.le_trans h hp) with
      h | ⟨before, op, after, right, m, hs, h⟩
    · refine ⟨[], [], p, left, .refl p, (List.append_nil _).symm, .repeatEnd h, ?_⟩
      exact result_map left.value?
    · have hmoves : m.offset ≠ p.offset := offset_ne_of_operation hs
      have hlt : m.rest.length < p.rest.length := Position.Reaches.length_lt ⟨_, hs⟩ hmoves
      obtain ⟨vs, w, q, t, hw, ht, hvs, hvalue⟩ :=
        ih _ hlt m (Nat.le_trans (Nat.le_of_lt hlt) hp) (.operation left before op after right) rfl
      refine ⟨_ :: vs, _, q, t, hs.trans hw, ?_, .repeatOn h hmoves hvs, ?_⟩
      · rw [ht, Tree.text, List.append_assoc]
      · rw [applyOperations_cons left before op after right vs]
        exact hvalue

theorem decided_chain {r : Rank} {p : Position}
    (hop : ∀ p' : Position, p'.rest.length ≤ p.rest.length → Decided text r.operand p') :
    Decided text (.chain r) p := by
  rcases hop p (Nat.le_refl _) with h | ⟨first, m, hs, h⟩
  · exact .inl (reads_no_chain h)
  · have hle : m.rest.length ≤ p.rest.length := by
      rw [hs.1, List.length_append]
      omega
    obtain ⟨vs, w, q, t, hw, ht, hvs, hvalue⟩ := read_tails _ hop m hle (.operand first)
    refine .inr ⟨t, q, ?_, ?_⟩
    · rw [ht]
      exact hs.trans hw
    · rw [← hvalue]
      exact reads_operand_tails h hvs

/-- **What is read has a derivation**, and comes to its value. -/
theorem decided_sum (text : List Char) (p : Position) : Decided text (.chain .additive) p := by
  induction hlen : p.rest.length using Nat.strongRecOn generalizing p with
  | ind k ih =>
    subst hlen
    -- operands need only be not before the sum; a sum in parentheses is behind its parenthesis
    refine decided_chain (r := .additive) fun p₁ h₁ => ?_
    refine decided_chain (r := .multiplicative) fun p₂ h₂ => ?_
    exact decided_factor fun p₃ h₃ =>
      ih _ (Nat.lt_of_lt_of_le h₃ (Nat.le_trans h₂ h₁)) p₃ rfl

/-- Every nonterminal is decided at every place. -/
theorem decided (text : List Char) (n : Nonterminal) (p : Position) : Decided text n p := by
  have hfactor : ∀ p, Decided text .factor p := fun _ =>
    decided_factor fun p' _ => decided_sum text p'
  match n with
  | .factor => exact hfactor p
  | .chain .additive => exact decided_sum text p
  | .chain .multiplicative => exact decided_chain (r := .multiplicative) fun p' _ => hfactor p'

/-- A text begins with nothing that is read, or with a text that has a derivation. -/
theorem decided_root (text : List Char) :
    Reads text rootExpression (.start text) .fail ∨
      ∃ (d : Derivation) (q : Position), (Position.start text).Spans d.text q ∧
        Reads text rootExpression (.start text) (.ok d.sum.value q) := by
  obtain ⟨b, p, hbefore, hp⟩ := exists_blanks (.start text)
  rcases decided_sum text p with h | ⟨t, k, hsum, h⟩
  · exact .inl (reads_no_root hbefore hp h)
  · obtain ⟨a, q, hafter, hq⟩ := exists_blanks k
    exact .inr ⟨⟨b, t, a⟩, q, hbefore.trans (hsum.trans hafter), reads_root hbefore hp h hafter hq⟩

end OrderedChoice.Calculator
