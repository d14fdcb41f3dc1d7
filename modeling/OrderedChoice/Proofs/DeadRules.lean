import Mathlib.Logic.Relation
import OrderedChoice.Proofs.Semantics.Rewriting
import OrderedChoice.Transform

/-!
# Dead rules

If all symbols of a rule stand in front of a later rule of the same expression, then the later rule
is dead: where it is tried the earlier one has failed, and it fails at the same symbol.  Dead rules
can be left out (`Session.parse_pruned`).
-/

namespace OrderedChoice

variable {τ : Type}

/-- A rule is left out that begins with all symbols of an earlier one. -/
inductive LeavesOut : List (Rule τ) → List (Rule τ) → Prop
  | intro (before between after : List (Rule τ)) {x y : Rule τ} : x.symbols <+: y.symbols →
      LeavesOut (before ++ x :: (between ++ y :: after)) (before ++ x :: (between ++ after))

/-- Any number of dead rules are left out, one after the other. -/
def Prunes : List (Rule τ) → List (Rule τ) → Prop := Relation.ReflTransGen LeavesOut

/-- Where a rule fails, a rule that begins with all its symbols fails as well. -/
theorem Derives.fail_of_prefix {s : Setting τ} {R : Semantics τ} {f : Frame τ} {p : Position}
    {x y : Rule τ} (hxy : x.symbols <+: y.symbols) (h : Derives s R (.rule f x p .fail)) :
    Derives s R (.rule f y p .fail) := by
  obtain ⟨ys, hys⟩ := hxy
  cases h with
  | ruleFails h => exact .ruleFails (hys ▸ h.symbols_append_fail ys)

section

variable {s : Setting τ} {n d : Nat} {g : Grammar τ} {e : Expression τ} {p : Position}
  {r : Result Value} {rules rules' : List (Rule τ)}

/-- A dead rule makes no difference to what rules come to. -/
theorem LeavesOut.rules_iff (h : LeavesOut rules rules') :
    Derives s (Within s n) (.rules (s.frame d g e) rules p r) ↔
      Derives s (Within s n) (.rules (s.frame d g e) rules' p r) := by
  cases h with
  | @intro before between after x y hxy =>
    simp only [Derives.rules_append_iff, Derives.rules_cons_iff]
    -- both come to the same up to the place of the dead rule, which is reached if `x` has failed
    refine or_congr_right (and_congr_right fun _ => or_congr_right (and_congr_right fun hx =>
      or_congr_right (and_congr_right fun _ => ?_)))
    have hy := hx.fail_of_prefix hxy
    constructor
    · rintro (⟨hr, hne⟩ | ⟨-, hafter⟩)
      · exact absurd (hr.rule_unique hy) hne
      · exact hafter
    · exact fun hafter => .inr ⟨hy, hafter⟩

theorem Prunes.rules_iff (h : Prunes rules rules') :
    Derives s (Within s n) (.rules (s.frame d g e) rules p r) ↔
      Derives s (Within s n) (.rules (s.frame d g e) rules' p r) := by
  induction h with
  | refl => exact Iff.rfl
  | tail _ hout ih => exact ih.trans hout.rules_iff

theorem Prunes.subset (h : Prunes rules rules') : rules' ⊆ rules := by
  induction h with
  | refl => exact List.Subset.refl _
  | tail _ hout ih =>
    refine List.Subset.trans ?_ ih
    cases hout with
    | @intro before between after x y =>
      have hrest : (between ++ after).Sublist (between ++ y :: after) :=
        (List.sublist_cons_self y after).append_left between
      exact ((hrest.cons_cons x).append_left before).subset

end

/-- Leaving out dead rules is harmless, where transforms do not look at the rules of expressions. -/
theorem preserves_prunes {s : Setting τ} {root : Grammar τ}
    (hs : root.Respects s.meaning (Context.Rewrites Prunes)) : s.Preserves Prunes root where
  rules_iff _ h := h.rules_iff
  meaning_eq {g g' e e' rule t args p q} hpart he hg hchange hrule ht :=
    (hs t args ⟨g, e, rule, s.input, p, q⟩ ⟨g', e', rule, s.input, p, q⟩
      ⟨hpart, he, hchange.rules.subset hrule⟩ ht ⟨hg, hchange, rfl, rfl, rfl, rfl⟩).symm

/-- **Dead rules are dead.**  Without rules that begin with all symbols of earlier ones, whatever
their transforms and in however many expressions of a grammar and its imports, every parse comes to
the same, if transforms do not look at the rules of expressions. -/
theorem Session.parse_pruned (s : Session τ) (g' : Grammar τ) (hg : s.grammar.Rewrites Prunes g')
    (hs : s.grammar.Respects s.meaning (Context.Rewrites Prunes)) (input : String) :
    ((s.withGrammar g').parse input).1.outcome = (s.parse input).1.outcome :=
  outcome_rewritten hg (fun _ => preserves_prunes hs) input

/-! ### Brackets that are read by the first rule -/

/-- No ready-made transform looks at the rules of expressions. -/
theorem Transform.apply_eq_of_rewrites {X : List (Rule τ) → List (Rule τ) → Prop} (t : Transform)
    (args : List Value) {c c' : Context τ} (h : c.Rewrites X c') :
    t.apply args c = t.apply args c' := by
  have htext : c.matchedText = c'.matchedText := by
    simp only [Context.matchedText, h.start_eq, h.stop_eq]
  cases t with
  | text | span => simp only [apply, htext, h.start_eq, h.stop_eq]
  | context =>
    simp only [apply, describe, Context.symbol?, htext, h.grammar.name_eq, h.expression.name_eq,
      h.rule_eq, h.input_eq, h.start_eq, h.stop_eq]
  | _ => rfl

/-- A pair of brackets around another one, or around nothing. -/
def pair : Rule Transform :=
  ⟨[.literal "(", .reference "nested", .literal ")"], some (.tag "pair")⟩

/-- A pair with another one behind it. -/
def pairs : Rule Transform := ⟨pair.symbols ++ [.reference "nested"], some .context⟩

/-- Pairs inside each other. -/
def nested : Expression Transform := ⟨"nested", [pair, ⟨[], some .count⟩]⟩

/-- Pairs that were also meant to follow each other. -/
def nestedPairs : Expression Transform := ⟨"nested", [pair, pairs, ⟨[], some .count⟩]⟩

/-- Nested pairs, imported. -/
def pairGrammar : Grammar Transform :=
  .ofMembers "text" (some "start")
    [⟨"start", [⟨[.qualified "brackets" "nested"], some .first⟩]⟩]
    [.ofMembers "brackets" none [nestedPairs] []]

theorem rewrites_nestedPairs : nestedPairs.Rewrites Prunes nested := by
  have hout : LeavesOut nestedPairs.rules nested.rules :=
    @LeavesOut.intro Transform [] [] [⟨[], some .count⟩] pair pairs (List.prefix_append _ _)
  exact ⟨rfl, .single hout⟩

theorem Session.parse_pruned_pairs :
    let s := Session.new pairGrammar Transform.apply .default
    let pruned := pairGrammar.editAt (.putExpression "nested" nested) ["brackets"]
    pairGrammar.Rewrites Prunes pruned ∧
    pairGrammar.Respects Transform.apply (Context.Rewrites Prunes) ∧
    ((s.withGrammar pruned).parse "(())").1.outcome = .matched (.list [.string "pair",
      .string "(", .list [.string "pair", .string "(", .integer 0, .string ")"], .string ")"]) := by
  intro s pruned
  have hg : pairGrammar.Rewrites Prunes pruned := .of_editAt (fun _ => .refl) rfl rfl
    rewrites_nestedPairs
  have hs : pairGrammar.Respects Transform.apply (Context.Rewrites Prunes) :=
    fun t args c c' _ _ h => t.apply_eq_of_rewrites args h
  exact ⟨hg, hs, (parse_pruned s pruned hg hs "(())").trans rfl⟩

end OrderedChoice
