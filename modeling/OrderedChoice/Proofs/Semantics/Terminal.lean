import OrderedChoice.Proofs.Semantics.Basic

/-!
# Literals and patterns take what they mean

`Terminal.taken?` computes `Terminal.Takes`, and `Takes` allows only one result:

* `Terminal.longestRun_occurrences`: the characters of all occurrences in a row are the longest
  text of occurrences;
* `Terminal.takes_iff`: a terminal takes what is computed, and nothing else;
* `Terminal.takes_run`: a repeated pattern takes all characters up to one that it does not accept.
-/

namespace OrderedChoice

namespace Terminal

variable {t : Terminal} {q : Quantifier} {p : Position} {a b cs : List Char} {n : Nat}

/-! ### One occurrence -/

theorem occurrence?_eq_some_iff :
    t.occurrence? cs = some n ↔ ∃ a, t.Occurs a ∧ a <+: cs ∧ a.length = n := by
  cases t with
  | literal text =>
    constructor
    · intro h
      obtain ⟨hp, rfl⟩ : text.isPrefixOf cs = true ∧ text.length = n := by
        simpa [occurrence?] using h
      exact ⟨text, .literal text, List.isPrefixOf_iff_prefix.1 hp, rfl⟩
    · rintro ⟨_, ⟨⟩, hp, rfl⟩
      simp [occurrence?, List.isPrefixOf_iff_prefix.2 hp]
  | pattern c =>
    constructor
    · intro h
      cases cs with
      | nil => simp [occurrence?] at h
      | cons d cs =>
        obtain ⟨hd, rfl⟩ : c.accepts d = true ∧ 1 = n := by simpa [occurrence?] using h
        exact ⟨[d], .pattern hd, ⟨cs, rfl⟩, rfl⟩
    · rintro ⟨_, ha, ⟨cs, rfl⟩, rfl⟩
      cases ha with
      | pattern hd => simp [occurrence?, hd]

theorem occurrence?_eq_none_iff : t.occurrence? cs = none ↔ ¬ t.BeginsWith cs := by
  rw [Option.eq_none_iff_forall_ne_some]
  constructor
  · rintro h ⟨a, ha, hp⟩
    exact h a.length (occurrence?_eq_some_iff.2 ⟨a, ha, hp, rfl⟩)
  · intro h n hn
    obtain ⟨a, ha, hp, -⟩ := occurrence?_eq_some_iff.1 hn
    exact h ⟨a, ha, hp⟩

/-- A text begins with at most one occurrence. -/
theorem Occurs.unique (ha : t.Occurs a) (hb : t.Occurs b) (hap : a <+: cs) (hbp : b <+: cs) :
    a = b := by
  cases ha with
  | literal => cases hb; rfl
  | pattern =>
    cases hb
    obtain ⟨_, rfl⟩ := hap
    obtain ⟨_, h⟩ := hbp
    cases h
    rfl

/-! ### All occurrences in a row -/

/-- Nothing but the empty text repeats the empty text. -/
theorem Repeats.eq_nil (h : t.Repeats a) (ht : t.Occurs []) : a = [] := by
  induction h with
  | nil => rfl
  | cons ha _ ih =>
    cases ht
    cases ha
    rw [ih, List.append_nil]

theorem longestRun_nil (h : ∀ b, b <+: cs → t.Repeats b → b = []) : t.LongestRun [] cs :=
  ⟨List.nil_prefix, .nil, fun b hb hr => Nat.le_of_eq (congrArg List.length (h b hb hr))⟩

/-- After an occurrence, the longest run goes on with the longest run of the rest. -/
theorem LongestRun.cons (ha : t.Occurs a) (h : t.LongestRun b cs) :
    t.LongestRun (a ++ b) (a ++ cs) := by
  obtain ⟨hp, hr, hmax⟩ := h
  refine ⟨(List.prefix_append_right_inj a).2 hp, .cons ha hr, fun b' hb' hr' => ?_⟩
  cases hr' with
  | nil => exact Nat.zero_le _
  | @cons a' b' ha' hr' =>
    obtain rfl := ha'.unique ha ((List.prefix_append a' b').trans hb') (List.prefix_append a cs)
    have := hmax b' ((List.prefix_append_right_inj a').1 hb') hr'
    simp only [List.length_append]
    omega

theorem longestRun_occurrences (t : Terminal) (bound : Nat) (cs : List Char)
    (h : cs.length ≤ bound) : t.LongestRun (cs.take (t.occurrences bound cs)) cs := by
  induction bound generalizing cs with
  | zero =>
    refine longestRun_nil fun b hb _ => ?_
    rw [List.eq_nil_of_length_eq_zero (Nat.le_zero.1 h)] at hb
    exact List.prefix_nil.1 hb
  | succ bound ih =>
    unfold occurrences
    split
    · rename_i hnone
      refine longestRun_nil fun b hb hr => ?_
      cases hr with
      | nil => rfl
      | cons ha _ =>
        exact absurd ⟨_, ha, (List.prefix_append _ _).trans hb⟩ (occurrence?_eq_none_iff.1 hnone)
    -- an occurrence of no text ends the loop, as it would be found again and again
    · rename_i hzero
      obtain ⟨a, ha, -, hlen⟩ := occurrence?_eq_some_iff.1 hzero
      obtain rfl := List.eq_nil_of_length_eq_zero hlen
      exact longestRun_nil fun b _ hr => hr.eq_nil ha
    · rename_i n hne hn
      obtain ⟨a, ha, ⟨rest, rfl⟩, rfl⟩ := occurrence?_eq_some_iff.1 hn
      have hpos : a.length ≠ 0 := fun hz => hne hz
      have hrest : rest.length ≤ bound := by
        rw [List.length_append] at h
        omega
      rw [List.take_length_add_append, List.drop_left]
      exact (ih rest hrest).cons ha

theorem LongestRun.unique (ha : t.LongestRun a cs) (hb : t.LongestRun b cs) : a = b := by
  have hlen : a.length = b.length :=
    Nat.le_antisymm (hb.2.2 a ha.1 ha.2.1) (ha.2.2 b hb.1 hb.2.1)
  exact (List.prefix_of_prefix_length_le ha.1 hb.1 (Nat.le_of_eq hlen)).eq_of_length hlen

/-! ### What a quantified terminal takes -/

/-- The result of a terminal at a place. -/
def result (t : Terminal) (q : Quantifier) (p : Position) : Result Value :=
  match t.taken? q p.rest with
  | some n => .ok (.ofChars (p.rest.take n)) (p.advance n)
  | none => .fail

theorem takes_result (t : Terminal) (q : Quantifier) (p : Position) :
    t.Takes q p (t.result q p) := by
  unfold result taken?
  cases ho : t.occurrence? p.rest with
  | none =>
    have hnone := occurrence?_eq_none_iff.1 ho
    cases hq : q.allowsNone with
    | true =>
      have h := Takes.absent (q := q) hnone hq
      rwa [← p.advance_zero] at h
    | false => exact .missing hnone hq
  | some n =>
    obtain ⟨a, ha, hp, rfl⟩ := occurrence?_eq_some_iff.1 ho
    cases hq : q.isRepeating with
    | true =>
      have hrun := longestRun_occurrences t p.rest.length p.rest (Nat.le_refl _)
      exact .repeated hq ⟨a, ha, hp⟩ hrun (Position.spans_advance _ _)
    | false =>
      have hs := Position.spans_of_prefix hp
      have hcs : p.rest.take a.length = a := (List.prefix_iff_eq_take.1 hp).symm
      have h := Takes.single (q := q) hq ha hs
      simpa [hcs] using h

theorem Takes.unique {r r' : Result Value} (h : t.Takes q p r) (h' : t.Takes q p r') : r = r' := by
  have hbegins : ∀ {a p'}, t.Occurs a → p.Spans a p' → t.BeginsWith p.rest :=
    fun ha hs => ⟨_, ha, hs.isPrefix⟩
  cases h with
  | missing hn hq =>
    cases h' with
    | missing => rfl
    | absent _ hq' => rw [hq] at hq'; cases hq'
    | single _ ha hs => exact absurd (hbegins ha hs) hn
    | repeated _ hb => exact absurd hb hn
  | absent hn hq =>
    cases h' with
    | missing _ hq' => rw [hq] at hq'; cases hq'
    | absent => rfl
    | single _ ha hs => exact absurd (hbegins ha hs) hn
    | repeated _ hb => exact absurd hb hn
  | single hq ha hs =>
    cases h' with
    | missing hn => exact absurd (hbegins ha hs) hn
    | absent hn => exact absurd (hbegins ha hs) hn
    | single _ ha' hs' =>
      obtain rfl := ha.unique ha' hs.isPrefix hs'.isPrefix
      rw [hs.right_unique hs']
    | repeated hq' => rw [hq] at hq'; cases hq'
  | repeated hq hb hrun hs =>
    cases h' with
    | missing hn => exact absurd hb hn
    | absent hn => exact absurd hb hn
    | single hq' => rw [hq] at hq'; cases hq'
    | repeated _ _ hrun' hs' =>
      obtain rfl := hrun.unique hrun'
      rw [hs.right_unique hs']

/-- A terminal takes what is computed, and nothing else. -/
theorem takes_iff {r : Result Value} : t.Takes q p r ↔ r = t.result q p :=
  ⟨fun h => h.unique (takes_result t q p), fun h => h ▸ takes_result t q p⟩

/-! ### Single characters and patterns -/

theorem not_beginsWith_pattern {c : Pattern} (h : NoHead c.accepts cs) :
    ¬ (Terminal.pattern c).BeginsWith cs := by
  rintro ⟨_, ha, ⟨ds, rfl⟩⟩
  cases ha with
  | pattern hd =>
    rw [noHead_cons.1 h] at hd
    cases hd

theorem longestRun_pattern {c : Pattern} (ha : ∀ d ∈ a, c.accepts d = true)
    (hcs : NoHead c.accepts cs) : (Terminal.pattern c).LongestRun a (a ++ cs) := by
  induction a with
  | nil =>
    refine longestRun_nil fun b hb hr => ?_
    cases hr with
    | nil => rfl
    | cons hb' _ =>
      exact absurd ⟨_, hb', (List.prefix_append _ _).trans hb⟩ (not_beginsWith_pattern hcs)
  | cons d a ih =>
    have hd := Occurs.pattern (ha d List.mem_cons_self)
    exact (ih fun x hx => ha x (List.mem_cons_of_mem d hx)).cons hd

/-- A repeated pattern takes the characters that it accepts, up to one that it does not. -/
theorem takes_run {c : Pattern} {p' : Position} (hq : q.isRepeating = true)
    (hs : p.Spans a p') (ha : ∀ d ∈ a, c.accepts d = true) (hend : NoHead c.accepts p'.rest)
    (hne : a ≠ [] ∨ q.allowsNone = true) :
    (Terminal.pattern c).Takes q p (.ok (.ofChars a) p') := by
  cases a with
  | nil =>
    obtain rfl := hs.right_unique (.refl p)
    exact .absent (not_beginsWith_pattern hend) (hne.resolve_left fun h => h rfl)
  | cons d a =>
    have hd := Occurs.pattern (ha d List.mem_cons_self)
    have hrun := longestRun_pattern ha hend
    rw [← hs.1] at hrun
    exact .repeated hq ⟨[d], hd, (List.prefix_append [d] a).trans hs.isPrefix⟩ hrun hs

theorem takes_no_run {c : Pattern} (hq : q.allowsNone = false) (h : NoHead c.accepts p.rest) :
    (Terminal.pattern c).Takes q p .fail := .missing (not_beginsWith_pattern h) hq

/-- A literal is missing where the text does not begin with it. -/
theorem takes_no_literal {text : List Char} (hq : q.allowsNone = false) (h : ¬ text <+: p.rest) :
    (Terminal.literal text).Takes q p .fail := by
  refine .missing ?_ hq
  rintro ⟨_, ha, hp⟩
  cases ha with
  | literal => exact h hp

/-- A literal of one character is missing where the text begins with another one. -/
theorem takes_no_char {c : Char} (h : NoHead (· == c) p.rest) :
    (Terminal.literal [c]).Takes .one p .fail := by
  refine takes_no_literal rfl ?_
  rintro ⟨ds, hds⟩
  rw [← hds] at h
  have hc := noHead_cons.1 h
  simp at hc

end Terminal

end OrderedChoice
