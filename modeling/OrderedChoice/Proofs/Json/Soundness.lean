import OrderedChoice.Proofs.Json.Grammar

/-!
# Only the grammar of JSON is read

Whatever the reader takes off the front of a text, the grammar derives for what the reader makes of
it.  So the texts that are read are those of the grammar, and every text stands for one value only.

* `readString_spells`, `readNumber_spells`: the parts without structure;
* `readValue_spells`: values, the items of arrays and the members of objects, by induction on the
  steps of the reader;
* `read_eq_some_iff`: a text is read as a value if and only if the grammar derives it so.
-/

namespace OrderedChoice.Json

/-! ### Blanks and strings -/

/-- What is taken off by dropping blanks. -/
theorem exists_blanks (cs : List Char) : ∃ a, AreBlanks a ∧ cs = a ++ dropBlanks cs :=
  ⟨cs.takeWhile isBlank, fun _ hc => (List.mem_takeWhile_imp hc),
    List.takeWhile_append_dropWhile.symm⟩

theorem exists_blanks_of_dropBlanks {cs r : List Char} (h : dropBlanks cs = r) :
    ∃ a, AreBlanks a ∧ cs = a ++ r := h ▸ exists_blanks cs

theorem readString_spells {cs rest : List Char} {us : List JsonUnit}
    (h : readString cs = some (us, rest)) : ∃ a, SpellsUnits a us ∧ cs = a ++ '"' :: rest := by
  have hunit : ∀ {a r rest : List Char} {u : JsonUnit} {us : List JsonUnit}, SpellsUnit a u →
      (∀ us, readString r = some (us, rest) →
        ∃ b, SpellsUnits b us ∧ r = b ++ '"' :: rest) →
      ((readString r).map fun out => (u :: out.1, out.2)) = some (us, rest) →
      ∃ b, SpellsUnits b us ∧ a ++ r = b ++ '"' :: rest := by
    intro a r rest u us hu ih h
    obtain ⟨⟨us', rest'⟩, hread, heq⟩ := Option.map_eq_some_iff.1 h
    cases heq
    obtain ⟨b, hb, rfl⟩ := ih us' hread
    exact ⟨a ++ b, .cons hu hb, (List.append_assoc a b _).symm⟩
  fun_induction readString cs generalizing us with
  | case1 => cases h
  | case2 r =>
    cases h
    exact ⟨[], .nil, rfl⟩
  | case3 a b c d r n hn ih => exact hunit (.code hn) (fun us hus => ih hus) h
  | case4 => cases h
  | case5 e r _ c hc ih => exact hunit (.letter hc) (fun us hus => ih hus) h
  | case6 => cases h
  | case7 => cases h
  | case8 c r hquote _ _ hc ih =>
    simp only [Bool.or_eq_true, decide_eq_true_eq, beq_iff_eq, not_or, Nat.not_lt] at hc
    exact hunit (.plain hc.1 hquote hc.2) (fun us hus => ih hus) h

/-! ### Numbers -/

theorem takeDigits_spells {cs rest : List Char} {ds : List Nat} (h : takeDigits cs = (ds, rest)) :
    (∀ d ∈ ds, d < 10) ∧ cs = ds.map Nat.digitChar ++ rest := by
  fun_induction takeDigits cs generalizing ds with
  | case1 =>
    cases h
    exact ⟨by simp, rfl⟩
  | case2 c r d hd ds' rest' hread ih =>
    cases h
    obtain ⟨hlt, rfl⟩ := digitValue?_eq_some_iff.1 hd
    obtain ⟨hds, rfl⟩ := ih hread
    exact ⟨List.forall_mem_cons.2 ⟨hlt, hds⟩, rfl⟩
  | case3 =>
    cases h
    exact ⟨by simp, rfl⟩

theorem readDigits_spells {cs rest : List Char} {ds : List Nat}
    (h : readDigits cs = some (ds, rest)) : ∃ a, AreDigits a ds ∧ cs = a ++ rest := by
  unfold readDigits at h
  split at h
  · cases h
  · rename_i hne
    have htake := Option.some.inj h
    obtain ⟨hds, hcs⟩ := takeDigits_spells htake
    refine ⟨_, ⟨?_, hds, rfl⟩, hcs⟩
    rintro rfl
    exact hne _ htake

theorem readWhole_spells {cs rest : List Char} {ds : List Nat}
    (h : readWhole cs = some (ds, rest)) :
    ∃ a, AreDigits a ds ∧ (ds.head? = some 0 → ds = [0]) ∧ cs = a ++ rest := by
  unfold readWhole at h
  split at h
  · cases h
  · rename_i hzero
    obtain ⟨a, ha, hcs⟩ := readDigits_spells h
    refine ⟨a, ha, fun hhead => ?_, hcs⟩
    obtain ⟨ds', rfl⟩ := List.head?_eq_some_iff.1 hhead
    cases ds' with
    | nil => rfl
    | cons d ds' => exact absurd h (hzero _ _ _)

theorem readFraction_spells {cs rest : List Char} {ds : List Nat}
    (h : readFraction cs = some (ds, rest)) : ∃ a, SpellsFraction a ds ∧ cs = a ++ rest := by
  unfold readFraction at h
  split at h
  · obtain ⟨a, ha, rfl⟩ := readDigits_spells h
    exact ⟨_, .some ha, rfl⟩
  · cases h
    exact ⟨[], .none, rfl⟩

theorem readExponent_spells {cs rest : List Char} {e : Option (Bool × List Nat)}
    (h : readExponent cs = some (e, rest)) : ∃ a, SpellsExponent a e ∧ cs = a ++ rest := by
  have hdigits : ∀ {negative : Bool} {r : List Char},
      ((readDigits r).map fun out => (some (negative, out.1), out.2)) = some (e, rest) →
      ∃ a ds, AreDigits a ds ∧ e = some (negative, ds) ∧ r = a ++ rest := by
    intro negative r h
    obtain ⟨⟨ds, rest'⟩, hread, heq⟩ := Option.map_eq_some_iff.1 h
    cases heq
    obtain ⟨a, ha, rfl⟩ := readDigits_spells hread
    exact ⟨a, ds, ha, rfl, rfl⟩
  unfold readExponent at h
  simp only at h
  split at h
  · split_ifs at h with hmark
    · simp only [Bool.or_eq_true, beq_iff_eq] at hmark
      split at h
      · obtain ⟨a, ds, ha, rfl, rfl⟩ := hdigits h
        exact ⟨_, .plus hmark ha, rfl⟩
      · obtain ⟨a, ds, ha, rfl, rfl⟩ := hdigits h
        exact ⟨_, .minus hmark ha, rfl⟩
      · obtain ⟨a, ds, ha, rfl, rfl⟩ := hdigits h
        exact ⟨_, .unsigned hmark ha, rfl⟩
    · cases h
      exact ⟨[], .none, rfl⟩
  · cases h
    exact ⟨[], .none, rfl⟩

theorem readNumber_spells {cs rest : List Char} {x : JsonNumber}
    (h : readNumber cs = some (x, rest)) : ∃ a, SpellsNumber a x ∧ cs = a ++ rest := by
  have hparts : ∀ {negative : Bool} {r : List Char},
      (do
        let whole ← readWhole r
        let fraction ← readFraction whole.2
        let exponent ← readExponent fraction.2
        return (JsonNumber.mk negative whole.1 fraction.1 exponent.1, exponent.2)) =
          some (x, rest) →
      ∃ a, SpellsNumber ((if negative then ['-'] else []) ++ a) x ∧ r = a ++ rest := by
    intro negative r h
    simp only [Option.bind_eq_bind, Option.bind_eq_some_iff] at h
    obtain ⟨⟨whole, behind⟩, hwhole, ⟨fraction, behind'⟩, hfraction, ⟨exponent, behind''⟩,
      hexponent, h⟩ := h
    cases h
    obtain ⟨a, ha, hzero, rfl⟩ := readWhole_spells hwhole
    obtain ⟨b, hb, rfl⟩ := readFraction_spells hfraction
    obtain ⟨c, hc, rfl⟩ := readExponent_spells hexponent
    exact ⟨a ++ (b ++ c), .mk ha hzero hb hc, by simp⟩
  unfold readNumber at h
  split at h
  rename_i hsign
  split at hsign
  · cases hsign
    obtain ⟨a, ha, rfl⟩ := hparts h
    exact ⟨_, ha, rfl⟩
  · cases hsign
    obtain ⟨a, ha, rfl⟩ := hparts h
    exact ⟨_, ha, rfl⟩

/-! ### Values -/

/-- What is read as a value, as items or as members has been spelled, with blanks before a value and
with the closing bracket or brace behind items and members. -/
structure SpellsRead (n : Nat) : Prop where
  value : ∀ {cs rest : List Char} {j : Json}, readValue n cs = some (j, rest) →
    ∃ a b, AreBlanks a ∧ Spells b (.value j) ∧ cs = a ++ (b ++ rest)
  items : ∀ {cs rest : List Char} {js : List Json}, readItems n cs = some (js, rest) →
    ∃ a, Spells a (.elements js) ∧ cs = a ++ ']' :: rest
  members : ∀ {cs rest : List Char} {ms : List (List JsonUnit × Json)},
    readMembers n cs = some (ms, rest) → ∃ a, Spells a (.members ms) ∧ cs = a ++ '\x7d' :: rest

/-- A value with the blanks that are dropped behind it. -/
theorem SpellsRead.element {n : Nat} (H : SpellsRead n) {cs rest r : List Char} {j : Json}
    (h : readValue n cs = some (j, rest)) (hrest : dropBlanks rest = r) :
    ∃ a, Spells a (.element j) ∧ cs = a ++ r := by
  obtain ⟨a, b, ha, hb, rfl⟩ := H.value h
  obtain ⟨c, hc, rfl⟩ := exists_blanks_of_dropBlanks hrest
  exact ⟨a ++ (b ++ c), .element ha hb hc, by simp⟩

theorem readValue_spells {n : Nat} (H : SpellsRead n) {cs rest : List Char} {j : Json}
    (h : readValue (n + 1) cs = some (j, rest)) :
    ∃ a b, AreBlanks a ∧ Spells b (.value j) ∧ cs = a ++ (b ++ rest) := by
  obtain ⟨a, ha, hcs⟩ := exists_blanks cs
  suffices hspells : ∃ b, Spells b (.value j) ∧ dropBlanks cs = b ++ rest by
    obtain ⟨b, hb, hdrop⟩ := hspells
    exact ⟨a, b, ha, hb, by rw [← hdrop, ← hcs]⟩
  unfold readValue at h
  split at h
  · cases h
    exact ⟨_, .null, by assumption⟩
  · cases h
    exact ⟨_, .bool true, by assumption⟩
  · cases h
    exact ⟨_, .bool false, by assumption⟩
  · rename_i r hdrop
    obtain ⟨⟨us, rest'⟩, hread, heq⟩ := Option.map_eq_some_iff.1 h
    cases heq
    obtain ⟨b, hb, rfl⟩ := readString_spells hread
    exact ⟨_, .string (.quoted hb), by simpa using hdrop⟩
  · rename_i r hdrop
    split at h
    · rename_i hblank
      cases h
      obtain ⟨c, hc, rfl⟩ := exists_blanks_of_dropBlanks hblank
      exact ⟨_, .emptyArray hc, by simpa using hdrop⟩
    · obtain ⟨⟨items, rest'⟩, hread, heq⟩ := Option.map_eq_some_iff.1 h
      cases heq
      rw [readItems_dropBlanks] at hread
      obtain ⟨b, hb, rfl⟩ := H.items hread
      exact ⟨_, .array hb, by simpa using hdrop⟩
  · rename_i r hdrop
    split at h
    · rename_i hblank
      cases h
      obtain ⟨c, hc, rfl⟩ := exists_blanks_of_dropBlanks hblank
      exact ⟨_, .emptyObject hc, by simpa using hdrop⟩
    · obtain ⟨⟨members, rest'⟩, hread, heq⟩ := Option.map_eq_some_iff.1 h
      cases heq
      rw [readMembers_dropBlanks] at hread
      obtain ⟨b, hb, rfl⟩ := H.members hread
      exact ⟨_, .object hb, by simpa using hdrop⟩
  · obtain ⟨⟨x, rest'⟩, hread, heq⟩ := Option.map_eq_some_iff.1 h
    cases heq
    obtain ⟨b, hb, hdrop⟩ := readNumber_spells hread
    exact ⟨b, .number hb, hdrop⟩

theorem readItems_spells {n : Nat} (H : SpellsRead n) {cs rest : List Char} {js : List Json}
    (h : readItems (n + 1) cs = some (js, rest)) :
    ∃ a, Spells a (.elements js) ∧ cs = a ++ ']' :: rest := by
  unfold readItems at h
  split at h
  · cases h
  · rename_i hread
    split at h
    · rename_i hcomma
      obtain ⟨⟨js', rest'⟩, hreads, heq⟩ := Option.map_eq_some_iff.1 h
      cases heq
      obtain ⟨a, ha, rfl⟩ := H.element hread hcomma
      obtain ⟨b, hb, rfl⟩ := H.items hreads
      exact ⟨_, .elements ha hb, by simp⟩
    · rename_i hclosing
      cases h
      obtain ⟨a, ha, rfl⟩ := H.element hread hclosing
      exact ⟨a, .lastElement ha, rfl⟩
    · cases h

theorem readMembers_spells {n : Nat} (H : SpellsRead n) {cs rest : List Char}
    {ms : List (List JsonUnit × Json)} (h : readMembers (n + 1) cs = some (ms, rest)) :
    ∃ a, Spells a (.members ms) ∧ cs = a ++ '\x7d' :: rest := by
  unfold readMembers at h
  split at h
  · rename_i hquote
    obtain ⟨a, ha, rfl⟩ := exists_blanks_of_dropBlanks hquote
    split at h
    · cases h
    · rename_i hstring
      obtain ⟨key, hkey, rfl⟩ := readString_spells hstring
      split at h
      · rename_i hcolon
        obtain ⟨b, hb, rfl⟩ := exists_blanks_of_dropBlanks hcolon
        split at h
        · cases h
        · rename_i hread
          split at h
          · rename_i hcomma
            obtain ⟨⟨ms', rest'⟩, hreads, heq⟩ := Option.map_eq_some_iff.1 h
            cases heq
            obtain ⟨c, hc, rfl⟩ := H.element hread hcomma
            obtain ⟨d, hd, rfl⟩ := H.members hreads
            exact ⟨_, .members (.member ha (.quoted hkey) hb hc) hd, by simp⟩
          · rename_i hclosing
            cases h
            obtain ⟨c, hc, rfl⟩ := H.element hread hclosing
            exact ⟨_, .lastMember (.member ha (.quoted hkey) hb hc), by simp⟩
          · cases h
      · cases h
  · cases h

/-- **What the reader reads has been spelled**, in any number of steps. -/
theorem spellsRead (n : Nat) : SpellsRead n := by
  induction n with
  | zero =>
    refine ⟨fun h => ?_, fun h => ?_, fun h => ?_⟩
    · rw [readValue] at h
      cases h
    · rw [readItems] at h
      cases h
    · rw [readMembers] at h
      cases h
  | succ n ih => exact ⟨readValue_spells ih, readItems_spells ih, readMembers_spells ih⟩

/-- A text is read as a value just in case the grammar derives it so. -/
theorem read_eq_some_iff {text : List Char} {j : Json} :
    read text = some j ↔ Spells text (.element j) := by
  refine ⟨fun h => ?_, read_of_spells⟩
  unfold read at h
  split at h
  · rename_i hread
    split_ifs at h with hend
    cases h
    obtain ⟨a, ha, hcs⟩ := (spellsRead _).element hread (List.isEmpty_iff.1 hend)
    rwa [hcs, List.append_nil]
  · cases h

end OrderedChoice.Json
