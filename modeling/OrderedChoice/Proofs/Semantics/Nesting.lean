import Mathlib.Data.Finset.Card
import Mathlib.Data.Finset.Dedup
import Mathlib.Data.Finset.Filter
import Mathlib.Data.List.ProdSigma
import OrderedChoice.Proofs.Semantics.Completeness

/-!
# How deeply expressions nest

`Within s n` is what expressions come to while at most `n` of them are open at once.  It is what
`matchExpression s n` finds (`result?_matchExpression`), so a text has at most one meaning within
`n`, and the question is whether `n` is enough.

* `Matches.within_of_room`: with a limit on nesting, one more than the limit is enough;
* `Matches.within_of_isIn`: without a limit, as many as there are pairs of an expression of the
  grammar and a place of the text.  Beyond that some `n` gives no result that `n + 1` gives not
  as well (`exists_stable`), and then nothing nests more deeply than `n`.
-/

namespace OrderedChoice

variable {τ : Type}

/-- What an expression comes to, given what the expressions inside it come to. -/
inductive Opened (s : Setting τ) (R : Semantics τ) : Semantics τ
  | tooDeep {f : Frame τ} {p : Position} {limit : Nat} : f.room = some 0 → s.limit = some limit →
      Opened s R f p (.err (.depthExceeded limit f.expression.name))
  | inside {f : Frame τ} {p : Position} {r : Result Value} : f.room ≠ some 0 →
      Derives s R (.rules f f.expression.rules p r) → Opened s R f p r

/-- What expressions come to while at most so many of them are open at once. -/
def Within (s : Setting τ) : Nat → Semantics τ
  | 0 => fun _ _ _ => False
  | n + 1 => Opened s (Within s n)

variable {s : Setting τ} {R S : Semantics τ} {f : Frame τ} {p : Position} {r : Result Value}

theorem Opened.isAheadOf (hR : ∀ f p r, R f p r → r.IsAheadOf p) (h : Opened s R f p r) :
    r.IsAheadOf p := by
  cases h with
  | tooDeep => exact Result.isAheadOf_err _ p
  | inside _ d => exact d.isAhead hR

/-- Of two expressions of one name, with the same room, one comes to what the other does if its
rules do. -/
theorem Opened.imp {f' : Frame τ} (hroom : f'.room = f.room)
    (hname : f'.expression.name = f.expression.name)
    (hrules : Derives s R (.rules f f.expression.rules p r) →
      Derives s S (.rules f' f'.expression.rules p r)) (h : Opened s R f p r) :
    Opened s S f' p r := by
  cases h with
  | tooDeep hf hl =>
    rw [← hname]
    exact .tooDeep (hroom.trans hf) hl
  | inside hf d => exact .inside (hroom ▸ hf) (hrules d)

theorem Opened.mono (hR : ∀ f p r, R f p r → r.IsAheadOf p) (hRS : ∀ f p r, R f p r → S f p r)
    (h : Opened s R f p r) : Opened s S f p r :=
  h.imp rfl rfl fun d => d.mono hR fun f p r _ => hRS f p r

theorem Within.isAheadOf {n : Nat} (h : Within s n f p r) : r.IsAheadOf p := by
  induction n generalizing f p r with
  | zero => exact h.elim
  | succ n ih => exact Opened.isAheadOf (fun _ _ _ => ih) h

theorem Within.succ {n : Nat} (h : Within s n f p r) : Within s (n + 1) f p r := by
  induction n generalizing f p r with
  | zero => exact h.elim
  | succ n ih => exact Opened.mono (fun _ _ _ => Within.isAheadOf) (fun _ _ _ => ih) h

theorem Within.mono {n k : Nat} (hn : n ≤ k) (h : Within s n f p r) : Within s k f p r := by
  induction hn with
  | refl => exact h
  | step _ ih => exact ih.succ

/-- What is found within a bound is right. -/
theorem Within.matches {n : Nat} (h : Within s n f p r) : Matches s f p r := by
  induction n generalizing f p r with
  | zero => exact h.elim
  | succ n ih =>
    cases h with
    | tooDeep hf hl => exact .tooDeep hf hl
    | inside hf d =>
      -- the rules are the same, only for a larger meaning of the expressions inside
      exact .inside hf (d.mono (fun _ _ _ => Within.isAheadOf) fun _ _ _ _ => ih)

/-! ### The bound of the engine -/

variable {call : Matcher τ} {d : Nat}

/-- References lead from the frames of one depth to those of the next. -/
theorem Setting.frame_resolve {g : Grammar τ} {e : Expression τ} {ref : Reference}
    (h : (s.frame d g e).resolve ref = .ok f) : f = s.frame (d + 1) f.grammar f.expression := by
  obtain ⟨g', e', -, rfl⟩ := Frame.resolve_eq_ok h
  exact s.frame_inner d g g' e e'

section

variable (hx : call.Exact) (hR : ∀ f p r, R f p r → r.IsAheadOf p)
include hx hR

/-- What is derived in a frame of one depth is run inside it, at the next depth. -/
theorem Derives.runs_inside {J : Judgement τ}
    (hcall : ∀ g e m r, m.depth = d + 1 → R (s.frame (d + 1) g e) m.position r →
      (call g e m).result? = some r)
    (hJ : ∀ f p, J.Calls f p → f = s.frame (d + 1) f.grammar f.expression)
    (h : Derives s R J) : J.Runs s call (d + 1) := by
  -- only frames of the next depth are called, and of these the matcher finds all results
  have h' : Derives s (fun f p r => f = s.frame (d + 1) f.grammar f.expression ∧ R f p r) J :=
    h.mono hR fun f p r hc hr => ⟨hJ f p hc, hr⟩
  refine h'.runs hx fun f p r hr m hp hd => ?_
  rw [hr.1, ← hp] at hr
  exact hcall _ _ m r hd hr.2

theorem result?_matchInside
    (hcall : ∀ g e m r, m.depth = d + 1 →
      ((call g e m).result? = some r ↔ R (s.frame (d + 1) g e) m.position r))
    (g : Grammar τ) (e : Expression τ) (m : Machine τ) (hd : m.depth = d) :
    (matchInside s call g e m).result? = some r ↔
      Derives s R (.rules (s.frame d g e) e.rules m.position r) := by
  constructor
  · intro h
    have hfollows : call.Follows s True R (d + 1) :=
      ⟨hx, fun g e m hd => Attempt.meets_true fun r => (hcall g e m r hd).1⟩
    exact (meets_matchInside hfollows g e m hd).of_result? h
  · intro h
    have hruns : (matchRules s call g e e.rules (m.enter e)).result? = some r := by
      refine h.runs_inside hx hR (fun g e m r hd => (hcall g e m r hd).2) ?_ (m.enter e) rfl
        (congrArg (· + 1) hd)
      rintro f p ⟨⟨ref, href⟩, -⟩
      exact Setting.frame_resolve href
    unfold matchInside
    generalize matchRules s call g e e.rules (m.enter e) = a at hruns
    obtain ⟨o, m'⟩ := a
    cases o <;> exact hruns

end

theorem Setting.frame_room_eq_zero {limit : Nat} (hl : s.limit = some limit) (d : Nat)
    (g : Grammar τ) (e : Expression τ) : (s.frame d g e).room = some 0 ↔ limit < d + 1 := by
  simp only [Setting.frame, hl, Option.map_some, Option.some.injEq]
  omega

/-- **The engine finds what there is within its bound**, and nothing else. -/
theorem result?_matchExpression (s : Setting τ) (n : Nat) (g : Grammar τ) (e : Expression τ)
    (m : Machine τ) (r : Result Value) :
    (matchExpression s n g e m).result? = some r ↔
      Within s n (s.frame m.depth g e) m.position r := by
  induction n generalizing g e m r with
  | zero => exact iff_of_false nofun id
  | succ n ih =>
    -- unless it nests too deeply, an expression comes to what its rules do within `n`
    have hin := result?_matchInside (R := Within s n) (r := r) (exact_matchExpression s n)
      (fun _ _ _ => Within.isAheadOf) (fun g e m' r hd => hd ▸ ih g e m' r) g e m rfl
    unfold matchExpression
    split
    · rename_i hl
      have hroom : (s.frame m.depth g e).room ≠ some 0 := by simp [Setting.frame, hl]
      refine hin.trans ⟨fun h => .inside hroom h, fun h => ?_⟩
      cases h with
      | tooDeep hf _ => exact absurd hf hroom
      | inside _ h => exact h
    · rename_i limit hl
      have hroom := s.frame_room_eq_zero hl m.depth g e
      split
      · rename_i hlt
        constructor
        · intro h
          cases h
          exact .tooDeep (hroom.2 hlt) hl
        · intro h
          cases h with
          | tooDeep hf hl' =>
            obtain rfl : limit = _ := Option.some.inj (hl.symm.trans hl')
            rfl
          | inside hf _ => exact absurd (hroom.2 hlt) hf
      · rename_i hlt
        refine hin.trans ⟨fun h => .inside (fun hf => hlt (hroom.1 hf)) h, fun h => ?_⟩
        cases h with
        | tooDeep hf _ => exact absurd (hroom.1 hf) hlt
        | inside _ h => exact h

/-- A run comes to what there is within its bound, if it ends. -/
theorem follows_within (s : Setting τ) (bound d : Nat) :
    (matchExpression s bound).Follows s True (Within s bound) d := by
  refine ⟨exact_matchExpression s bound, fun g e m hd => Attempt.meets_true fun r hr => ?_⟩
  rw [← hd]
  exact (result?_matchExpression s bound g e m r).1 hr

/-- A run within any bound is right, whether or not it ends. -/
theorem follows_matchExpression (s : Setting τ) (bound d : Nat) :
    (matchExpression s bound).Follows s True (Matches s) d :=
  ⟨exact_matchExpression s bound, fun g e m hd =>
    ((follows_within s bound d).meets g e m hd).mono fun _ => Within.matches⟩

/-- At a depth of a run there is at most one result. -/
theorem Within.unique {n : Nat} {g : Grammar τ} {e : Expression τ} {r' : Result Value}
    (h : Within s n (s.frame d g e) p r) (h' : Within s n (s.frame d g e) p r') : r = r' := by
  -- both are the one result of a run, begun at this place and depth with an empty log
  let m : Machine τ := { (Machine.start []) with position := p, depth := d }
  have hr := (result?_matchExpression s n g e m r).2 h
  have hr' := (result?_matchExpression s n g e m r').2 h'
  exact Option.some.inj (hr.symm.trans hr')

/-! ### A bound that is large enough -/

/-- With a limit, an expression opens no more others than it has room for. -/
theorem Matches.within_of_room (h : Matches s f p r) {k : Nat} (hk : f.room = some k) :
    Within s (k + 1) f p r := by
  refine Matches.induct (P := fun f p r => ∀ k, f.room = some k → Within s (k + 1) f p r)
    (fun f p limit hf hl k _ => ?_) (fun f p r hf d k hk => ?_) h k hk
  · exact .tooDeep hf hl
  · refine .inside hf (d.mono (fun _ _ _ h => h.1.isAheadOf) fun f' p r hc hr => ?_)
    obtain ⟨k, rfl⟩ : ∃ k', k = k' + 1 :=
      Nat.exists_eq_succ_of_ne_zero fun h0 => hf (hk.trans (congrArg some h0))
    obtain ⟨⟨ref, href⟩, -⟩ := hc
    obtain ⟨g, e, -, rfl⟩ := Frame.resolve_eq_ok href
    refine hr.2 k ?_
    simp only [Frame.inner, hk, Option.map_some, Nat.add_sub_cancel]

/-- Of a growing sequence of properties, one as early as there are things to have them is not
outgrown by the next. -/
theorem exists_stable {α : Type} (T : List α) (Q : Nat → α → Prop)
    (hQ : ∀ n a, Q n a → Q (n + 1) a) :
    ∃ n, n ≤ T.length ∧ ∀ a ∈ T, Q (n + 1) a → Q n a := by
  classical
  -- if each step added something, there would be more than `T.length` things after that many
  let having : Nat → Finset α := fun n => T.toFinset.filter (Q n)
  by_contra hT
  push Not at hT
  have hgrows : ∀ n, n ≤ T.length → (having n).card < (having (n + 1)).card := by
    intro n hn
    obtain ⟨a, ha, hnew, hold⟩ := hT n hn
    refine Finset.card_lt_card (Finset.ssubset_iff_subset_ne.2 ⟨?_, fun heq => ?_⟩)
    · exact Finset.monotone_filter_right _ fun a _ => hQ n a
    · have hmem : a ∈ having (n + 1) := Finset.mem_filter.2 ⟨List.mem_toFinset.2 ha, hnew⟩
      rw [← heq] at hmem
      exact hold (Finset.mem_filter.1 hmem).2
  have hcard : ∀ n, n ≤ T.length + 1 → n ≤ (having n).card := by
    intro n hn
    induction n with
    | zero => exact Nat.zero_le _
    | succ n ih => exact Nat.lt_of_le_of_lt (ih (by omega)) (hgrows n (by omega))
  have hlarge := hcard (T.length + 1) le_rfl
  have hsmall : (having (T.length + 1)).card ≤ T.length :=
    (Finset.card_filter_le _ _).trans (List.toFinset_card_le T)
  omega

/-- Without a limit, no more expressions need to be open than there are pairs of an expression
and a place. -/
theorem Matches.within_of_isIn {g : Grammar τ} {text : List Char} (hl : s.limit = none)
    (h : Matches s f p r) (hroom : f.room = none) (hf : f.IsIn g)
    (hp : (Position.start text).Reaches p) :
    Within s (g.expressionCount * (text.length + 1)) f p r := by
  have hframe : ∀ g' e, s.frame 0 g' e = ⟨none, g', e⟩ := by
    intro g' e
    simp only [Setting.frame, hl, Option.map_none]
  obtain ⟨n, hn, hstable⟩ := exists_stable (g.members ×ˢ Position.places text)
    (fun n x => ∃ r, Within s n (s.frame 0 x.1.1 x.1.2) x.2 r)
    fun _ _ hx => hx.imp fun _ => Within.succ
  rw [List.length_product, Grammar.length_members, Position.length_places] at hn
  -- induction over all that is nested: what is found with `n + 1` open is found with `n` as well
  refine Within.mono hn ?_
  refine Matches.induct_on (P := Within s n)
    (C := fun f p => f.room = none ∧ f.IsIn g ∧ (Position.start text).Reaches p)
    ?_ ?_ ?_ h ⟨hroom, hf, hp⟩
  · rintro f p f' p' ⟨hroom, hf, hp⟩ ⟨⟨ref, href⟩, hp'⟩
    refine ⟨?_, hf.resolve href, hp.trans hp'⟩
    obtain ⟨g', e', -, rfl⟩ := Frame.resolve_eq_ok href
    simp only [Frame.inner, hroom, Option.map_none]
  · rintro f p limit ⟨hroom, -, -⟩ hf0 -
    rw [hroom] at hf0
    cases hf0
  · rintro f p r ⟨hroom, hf, hp⟩ hf0 d
    have hopen : Within s (n + 1) f p r := .inside hf0 d
    have hmem : ((f.grammar, f.expression), p) ∈ g.members ×ˢ Position.places text :=
      List.mem_product.2 ⟨hf.1.mem_members hf.2, Position.mem_places hp⟩
    obtain ⟨room, g', e⟩ := f
    obtain rfl : room = none := hroom
    rw [← hframe g' e] at hopen ⊢
    -- there is a result at `n` too, and it holds at `n + 1` beside this one
    obtain ⟨r', hr'⟩ := hstable _ hmem ⟨r, hopen⟩
    obtain rfl : r = r' := hopen.unique hr'.succ
    exact hr'

end OrderedChoice
