import OrderedChoice.Text.Position

/-!
# Spans of text

`p.Spans cs q` says that the text from the place `p` to the place `q` is `cs`, and `p.Reaches q`
that there is such a text, so that both places belong to the same text and `q` is not before `p`.

* `Position.Spans.offset_eq_iff`: two places have the same offset only if there is nothing between
  them, so that comparing offsets is comparing places;
* `Position.Spans.textTo`: the text between two places is the one that is cut out;
* `Position.mem_places`: a text has one more place than characters;
* `Position.SameIn`: a place of a text beside itself;
* `NoHead` says what a text does not begin with;
* `toList_intercalate_cons` takes joined texts apart.
-/

namespace OrderedChoice

namespace Position

/-- The text from `p` to `q` is `cs`. -/
def Spans (p : Position) (cs : List Char) (q : Position) : Prop :=
  p.rest = cs ++ q.rest ∧ q.offset = p.offset + byteLength cs

/-- `q` is a place of the same text as `p`, and not before it. -/
def Reaches (p q : Position) : Prop := ∃ cs, p.Spans cs q

variable {p q r : Position} {cs ds : List Char}

/-! ### From place to place -/

theorem Spans.refl (p : Position) : p.Spans [] p := ⟨rfl, rfl⟩

theorem Spans.trans (h : p.Spans cs q) (h' : q.Spans ds r) : p.Spans (cs ++ ds) r := by
  refine ⟨?_, ?_⟩
  · rw [h.1, h'.1, List.append_assoc]
  · rw [h'.2, h.2, byteLength_append, Nat.add_assoc]

/-- Between two parts of a text there is a place. -/
theorem Spans.split (h : p.Spans (cs ++ ds) q) : ∃ m, p.Spans cs m ∧ m.Spans ds q := by
  refine ⟨⟨p.offset + byteLength cs, ds ++ q.rest⟩, ⟨?_, rfl⟩, rfl, ?_⟩
  · rw [h.1, List.append_assoc]
  · rw [h.2, byteLength_append, Nat.add_assoc]

theorem Spans.uncons {c : Char} (h : p.Spans (c :: ds) q) :
    ∃ m, p.Spans [c] m ∧ m.Spans ds q := by
  rw [← List.singleton_append] at h
  exact h.split

theorem spans_advance (p : Position) (n : Nat) : p.Spans (p.rest.take n) (p.advance n) :=
  ⟨(List.take_append_drop n p.rest).symm, rfl⟩

theorem Spans.eq_advance (h : p.Spans cs q) : q = p.advance cs.length := by
  obtain ⟨o, w⟩ := p
  obtain ⟨o', w'⟩ := q
  obtain ⟨rfl, rfl⟩ : w = cs ++ w' ∧ o' = o + byteLength cs := h
  simp [advance]

theorem spans_of_prefix (h : cs <+: p.rest) : p.Spans cs (p.advance cs.length) := by
  have hcs : p.rest.take cs.length = cs := (List.prefix_iff_eq_take.1 h).symm
  have hp := spans_advance p cs.length
  rwa [hcs] at hp

theorem Spans.isPrefix (h : p.Spans cs q) : cs <+: p.rest := ⟨q.rest, h.1.symm⟩

/-- The place at the end of a text is determined by the text. -/
theorem Spans.right_unique (h : p.Spans cs q) (h' : p.Spans cs r) : q = r :=
  h.eq_advance.trans h'.eq_advance.symm

/-- Of two places behind a third, the one with less text before it is not behind the other. -/
theorem Spans.reaches_of_prefix (h : p.Spans cs q) (h' : p.Spans ds r) (hp : cs <+: ds) :
    q.Reaches r := by
  obtain ⟨es, rfl⟩ := hp
  obtain ⟨m, hm, hr⟩ := h'.split
  obtain rfl := h.right_unique hm
  exact ⟨es, hr⟩

theorem Spans.textTo (h : p.Spans cs q) : p.textTo q = cs := by
  rw [h.eq_advance, textTo_advance]
  exact (List.prefix_iff_eq_take.1 h.isPrefix).symm

theorem Reaches.refl (p : Position) : p.Reaches p := ⟨[], .refl p⟩

theorem Reaches.trans (h : p.Reaches q) (h' : q.Reaches r) : p.Reaches r := by
  obtain ⟨_, h⟩ := h
  obtain ⟨_, h'⟩ := h'
  exact ⟨_, h.trans h'⟩

/-! ### Offsets -/

theorem byteLength_eq_zero : byteLength cs = 0 ↔ cs = [] := by
  refine ⟨fun h => ?_, fun h => by rw [h]; rfl⟩
  have := length_le_byteLength cs
  exact List.eq_nil_of_length_eq_zero (by omega)

theorem Reaches.offset_le (h : p.Reaches q) : p.offset ≤ q.offset := by
  obtain ⟨_, h⟩ := h
  have := h.2
  omega

/-- An offset within a text is not larger than its length. -/
theorem Reaches.offset_le_byteLength {text : List Char}
    (h : (start text).Reaches p) : p.offset ≤ byteLength text := by
  obtain ⟨cs, hrest, hoffset⟩ := h
  have htext : text = cs ++ p.rest := hrest
  have hzero : p.offset = 0 + byteLength cs := hoffset
  rw [htext, byteLength_append]
  omega

theorem Spans.offset_eq_iff (h : p.Spans cs q) : q.offset = p.offset ↔ cs = [] := by
  rw [h.2, ← byteLength_eq_zero]
  omega

/-- Between places with different offsets there is at least one character. -/
theorem Reaches.length_lt (h : p.Reaches q) (ho : q.offset ≠ p.offset) :
    q.rest.length < p.rest.length := by
  obtain ⟨cs, h⟩ := h
  have hcs : cs ≠ [] := fun hcs => ho (h.offset_eq_iff.2 hcs)
  have := List.length_pos_iff.2 hcs
  rw [h.1, List.length_append]
  omega

/-! ### All places of a text -/

/-- The places of a text. -/
def places (text : List Char) : List Position :=
  (List.range (text.length + 1)).map (start text).advance

theorem length_places (text : List Char) : (places text).length = text.length + 1 := by
  simp [places]

theorem mem_places {text : List Char} (h : (start text).Reaches p) : p ∈ places text := by
  obtain ⟨cs, h⟩ := h
  refine List.mem_map.2 ⟨cs.length, ?_, h.eq_advance.symm⟩
  have := h.isPrefix.length_le
  exact List.mem_range.2 (Nat.lt_succ_of_le this)

/-! ### A place beside itself -/

/-- Both are the same place of a text. -/
structure SameIn (text : List Char) (p p' : Position) : Prop where
  eq : p = p'
  reaches : (start text).Reaches p

namespace SameIn

variable {text : List Char} {p' q' : Position}

theorem rest_eq (h : SameIn text p p') : p.rest = p'.rest := congrArg _ h.eq

theorem unique (h : SameIn text p p') (h' : SameIn text p q) : p' = q := h.eq.symm.trans h'.eq

theorem offset_eq_iff (h : SameIn text p p') (h' : SameIn text q q') :
    q.offset = p.offset ↔ q'.offset = p'.offset := by rw [h.eq, h'.eq]

theorem spans (h : SameIn text p p') (hs : p.Spans cs q) :
    ∃ q', SameIn text q q' ∧ p'.Spans cs q' :=
  ⟨q, ⟨rfl, h.reaches.trans ⟨cs, hs⟩⟩, h.eq ▸ hs⟩

theorem advance (h : SameIn text p p') (n : Nat) : SameIn text (p.advance n) (p'.advance n) :=
  ⟨by rw [h.eq], h.reaches.trans ⟨_, p.spans_advance n⟩⟩

end SameIn

end Position

/-! ### What a text does not begin with -/

/-- The text does not begin with a character that is accepted. -/
def NoHead (accepts : Char → Bool) (cs : List Char) : Prop :=
  ∀ c, cs.head? = some c → accepts c = false

theorem noHead_nil (accepts : Char → Bool) : NoHead accepts [] := nofun

theorem noHead_cons {accepts : Char → Bool} {c : Char} {cs : List Char} :
    NoHead accepts (c :: cs) ↔ accepts c = false :=
  ⟨fun h => h c rfl, fun h _ hc => Option.some.inj hc ▸ h⟩

/-- Accepted characters are told from a text that does not begin with one. -/
theorem append_inj_of_noHead {accepts : Char → Bool} {a b x y : List Char}
    (ha : ∀ c ∈ a, accepts c = true) (hb : ∀ c ∈ b, accepts c = true) (hx : NoHead accepts x)
    (hy : NoHead accepts y) (h : a ++ x = b ++ y) : a = b ∧ x = y := by
  have hend : ∀ {x : List Char}, NoHead accepts x → x.takeWhile accepts = [] := by
    intro x hx
    cases x with
    | nil => rfl
    | cons c x => rw [List.takeWhile_cons_of_neg (by rw [noHead_cons.1 hx]; nofun)]
  have heq : a = b := by
    have htake := congrArg (List.takeWhile accepts) h
    rwa [List.takeWhile_append_of_pos ha, List.takeWhile_append_of_pos hb, hend hx, hend hy,
      List.append_nil, List.append_nil] at htake
  rw [heq] at h
  exact ⟨heq, List.append_cancel_left h⟩

/-- At a place there is an accepted character or none. -/
theorem Position.noHead_or (accepts : Char → Bool) (p : Position) :
    NoHead accepts p.rest ∨ ∃ c q, accepts c = true ∧ p.Spans [c] q := by
  obtain ⟨o, rest⟩ := p
  cases rest with
  | nil => exact .inl (noHead_nil accepts)
  | cons c cs =>
    cases hc : accepts c with
    | false => exact .inl (noHead_cons.2 hc)
    | true => exact .inr ⟨c, ⟨o + byteLength [c], cs⟩, hc, rfl, rfl⟩

/-- At every place there is a text of accepted characters, up to one that is not. -/
theorem Position.exists_run (accepts : Char → Bool) (p : Position) :
    ∃ cs q, p.Spans cs q ∧ (∀ c ∈ cs, accepts c = true) ∧ NoHead accepts q.rest := by
  obtain ⟨o, rest⟩ := p
  induction rest generalizing o with
  | nil => exact ⟨[], _, .refl _, nofun, noHead_nil accepts⟩
  | cons c cs ih =>
    cases hc : accepts c with
    | false => exact ⟨[], _, .refl _, nofun, noHead_cons.2 hc⟩
    | true =>
      obtain ⟨ds, q, hs, hds, hq⟩ := ih (o + byteLength [c])
      have hfirst : Spans ⟨o, c :: cs⟩ [c] ⟨o + byteLength [c], cs⟩ := ⟨rfl, rfl⟩
      exact ⟨c :: ds, q, hfirst.trans hs, List.forall_mem_cons.2 ⟨hc, hds⟩, hq⟩

/-- Accepted characters do not lead past a place where there is none. -/
theorem Position.Spans.reaches_end {accepts : Char → Bool} {p q r : Position} {cs : List Char}
    (h : p.Spans cs q) (hcs : ∀ c ∈ cs, accepts c = true) (hr : p.Reaches r)
    (hend : NoHead accepts r.rest) : q.Reaches r := by
  obtain ⟨ds, hds⟩ := hr
  rcases List.prefix_or_prefix_of_prefix h.isPrefix hds.isPrefix with hp | ⟨es, rfl⟩
  · exact h.reaches_of_prefix hds hp
  · obtain ⟨m, hm, hq⟩ := h.split
    obtain rfl := hm.right_unique hds
    cases es with
    | nil => exact hq.right_unique (.refl m) ▸ .refl m
    | cons c es =>
      rw [hq.1] at hend
      have hc := noHead_cons.1 hend
      rw [hcs c (by simp)] at hc
      cases hc

/-! ### Joined texts -/

/-- Behind the first of joined texts, each other one follows a separator. -/
theorem toList_intercalate_cons (separator a : String) (as : List String) :
    (separator.intercalate (a :: as)).toList =
      a.toList ++ as.flatMap fun b => separator.toList ++ b.toList := by
  induction as generalizing a with
  | nil => simp
  | cons b as ih =>
    rw [String.intercalate_cons_cons, String.toList_append, ih, String.toList_append,
      List.flatMap_cons, List.append_assoc, List.append_assoc]

end OrderedChoice
