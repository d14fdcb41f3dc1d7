import OrderedChoice.Proofs.Calculator.CommandLine

/-!
# Expressions that begin with a sign

An expression may begin with a minus sign, and so does an option of the command line.  A command
line takes every such argument for options, and as the name of no option begins with a digit, it
refuses all of these.

* `Derivation.exists_digit_of_sign`: a text of the language that begins with a minus sign goes on
  with a digit;
* `Arguments.IsConventional` is what is relied on of a reader of command lines, and
  `Arguments.isConventional_read` says that the one of this project is such a reader;
* `outputFor_single`: the output for an expression as the only argument, and for the same expression
  behind the two hyphens that end all options.
-/

namespace OrderedChoice.Calculator

/-! ### A sign and a digit -/

/-- What begins with a minus sign goes on with a digit. -/
theorem Tree.exists_digit_of_sign {n : Nonterminal} (t : Tree n) {cs r : List Char}
    (h : t.text ++ cs = '-' :: r) : ∃ d r', digit.accepts d = true ∧ r = d :: r' := by
  induction t generalizing cs with
  | number negative digits =>
    obtain ⟨d, ds, hd⟩ := List.exists_cons_of_ne_nil digits.ne_nil
    have haccepted : digit.accepts d = true := digits.accepted d (by rw [hd]; simp)
    rw [text, hd] at h
    cases negative with
    | true =>
      injection h with _ hr
      exact ⟨d, ds ++ cs, haccepted, hr.symm⟩
    | false =>
      injection h with hsign _
      rw [hsign, (accepts_mark (by decide)).2] at haccepted
      cases haccepted
  | paren before sum after _ =>
    injection h with hparen _
    cases hparen
  | operand t ih => exact ih h
  | operation left before op after right ih _ =>
    rw [text, List.append_assoc] at h
    exact ih h

theorem Derivation.exists_digit_of_sign {d : Derivation} {r : List Char} (h : d.text = '-' :: r) :
    ∃ c r', digit.accepts c = true ∧ r = c :: r' := by
  rw [Derivation.text] at h
  cases hbefore : d.before.chars with
  | nil =>
    rw [hbefore] at h
    exact d.sum.exists_digit_of_sign h
  | cons b bs =>
    -- a minus sign is no white space
    rw [hbefore] at h
    injection h with hsign _
    have hblank := d.before.accepted b (by rw [hbefore]; simp)
    rw [hsign, (accepts_mark (by decide)).1] at hblank
    cases hblank

/-- Only texts of the language match in full. -/
theorem exists_derivation_of_matched {e : String} {v : Value}
    (h : outcomeOf ⟨none, true⟩ e = .matched v) : ∃ d : Derivation, d.text = e.toList := by
  by_contra hno
  have hyields : (session "" (.start [])).Yields e.toList (.ok none) := yields_none hno
  have hmismatch : outcomeOf ⟨none, true⟩ e = .mismatch := Session.outcome_eq_mismatch hyields
  rw [hmismatch] at h
  cases h

/-! ### Arguments -/

namespace Arguments

/-- What may stand behind the hyphen of a short option. -/
def shortNames : List Char := ['c', 'v', 'h', 'V']

/-- What is relied on of a reader of command lines, for arguments without a configuration. -/
structure IsConventional (read : Reader) : Prop where
  /-- Arguments that do not begin with a hyphen are expressions. -/
  plain : ∀ {es : List String}, es ≠ [] → (∀ e ∈ es, e.toList.head? ≠ some '-') →
    read es = .ok ⟨es, .none, false⟩
  /-- So are all arguments behind two hyphens. -/
  escaped : ∀ {es : List String}, es ≠ [] → read ("--" :: es) = .ok ⟨es, .none, false⟩
  /-- A short option without a name is refused, with a message and the exit code 2. -/
  unknown : ∀ {e : String} {c : Char} {r : List Char}, e.toList = '-' :: c :: r → c ≠ '-' →
    c ∉ shortNames → ∀ rest, ∃ message, read (e :: rest) = .error ⟨2, "", message⟩

/-- One hyphen with something else behind it stands for short options. -/
theorem kindOf_shorts {e : String} {c : Char} {r : List Char} (he : e.toList = '-' :: c :: r)
    (hc : c ≠ '-') : kindOf e = .shorts (c :: r) := by
  simp [kindOf, he, hc]

theorem readShorts_unknown (a : Arguments) {c : Char} (hc : c ∉ shortNames) (r : List Char) :
    readShorts a (c :: r) = .error misuse := by
  simp only [shortNames, List.mem_cons, List.not_mem_nil, or_false, not_or] at hc
  simp [readShorts, hc]

theorem isConventional_read : IsConventional read where
  plain {es} hne hplain := by
    have hread : read (commandLine .none es) = .ok ⟨es, .none, false⟩ :=
      read_commandLine hne hplain (by rintro _ ⟨⟩)
    exact hread
  escaped {es} hne := by
    have hkind : kindOf "--" = .endOfOptions := rfl
    have hread : readAfter none ("--" :: es) = .ok ⟨es, .none, false⟩ := by
      simp only [readAfter, hkind, none, List.nil_append]
    simp only [read, hread, Except.bind]
    rw [if_neg (by simpa using hne)]
  unknown he hc hname rest := by
    refine ⟨usage ++ "\n", ?_⟩
    simp only [read, readAfter, kindOf_shorts he hc, readShorts_unknown none hname]
    rfl

end Arguments

open Arguments

/-! ### The output for one expression -/

section

variable {L : Json.Library} {C : Json.Coding Config} {files : Files} {read : Reader}

/-- The output for an expression that matches. -/
theorem run_single {e : String} {v : Value} (h : outcomeOf ⟨none, true⟩ e = .matched v) :
    run L C ⟨[e], none, false⟩ files = ⟨0, line e v, ""⟩ := by
  have hrun : run L C ⟨[e], none, false⟩ files =
      evaluate (used ⟨none, true⟩ "" (.start [])) "" [e] := rfl
  rw [hrun, evaluate_cons, h]
  simp only [evaluate, String.empty_append]

/-- A digit is the name of no option. -/
theorem not_mem_shortNames {d : Char} (hd : digit.accepts d = true) :
    d ≠ '-' ∧ d ∉ shortNames := by
  have hnone : ∀ c ∈ '-' :: shortNames, digit.accepts c = false := by
    simp only [shortNames, List.forall_mem_cons, accepts_digit]
    exact ⟨by decide, by decide, by decide, by decide, by decide, List.forall_mem_nil _⟩
  have hd' : d ∉ '-' :: shortNames := fun hmem => by
    rw [hnone d hmem] at hd
    cases hd
  simpa [not_or] using hd'

/-- An expression that begins with a minus sign is taken for options that do not exist. -/
theorem exists_refusal (hread : IsConventional read) {e : String} {v : Value}
    (h : outcomeOf ⟨none, true⟩ e = .matched v) (hsign : e.toList.head? = some '-') :
    ∃ message, read [e] = .error ⟨2, "", message⟩ := by
  obtain ⟨r, hr⟩ := List.head?_eq_some_iff.1 hsign
  obtain ⟨d, hd⟩ := exists_derivation_of_matched h
  obtain ⟨c, r', hc, rfl⟩ := Derivation.exists_digit_of_sign (hd.trans hr)
  obtain ⟨hhyphen, hname⟩ := not_mem_shortNames hc
  exact hread.unknown hr hhyphen hname []

/-- **An expression as the only argument is evaluated, unless it begins with a minus sign.**  An
expression that matches in full is answered by a line and the exit code 0.  One that begins with a
minus sign is taken for options that do not exist, and is answered so only behind two hyphens. -/
theorem outputFor_single (L : Json.Library) (C : Json.Coding Config) (files : Files)
    (hread : IsConventional read) {e : String} {v : Value}
    (h : outcomeOf ⟨none, true⟩ e = .matched v) :
    ∃ text : String,
      (∀ n, v = .integer n → text = e ++ " = " ++ Value.integerText n ++ "\n") ∧
      ((∀ n, v ≠ .integer n) → text = e ++ " = undefined\n") ∧
      (e.toList.head? ≠ some '-' → outputFor L C files read [e] = ⟨0, text, ""⟩) ∧
      (e.toList.head? = some '-' →
        ∃ message, outputFor L C files read [e] = ⟨2, "", message⟩) ∧
      outputFor L C files read ["--", e] = ⟨0, text, ""⟩ := by
  have hne : [e] ≠ [] := List.cons_ne_nil e []
  have hrun : run L C ⟨[e], none, false⟩ files = ⟨0, line e v, ""⟩ := run_single h
  refine ⟨line e v, ?_, ?_, fun hplain => ?_, fun hsign => ?_, ?_⟩
  · rintro n rfl
    rfl
  · intro hv
    cases v with
    | integer n => exact absurd rfl (hv n)
    | _ => rfl
  · rw [outputFor, hread.plain hne (List.forall_mem_singleton.2 hplain)]
    exact hrun
  · obtain ⟨message, hmessage⟩ := exists_refusal hread h hsign
    exact ⟨message, by rw [outputFor, hmessage]⟩
  · rw [outputFor, hread.escaped hne]
    exact hrun

end

section

set_option maxRecDepth 4000

/-- White space before the sign makes an argument an expression. -/
theorem outputFor_single_blank :
    IsConventional Arguments.read ∧
      outcomeOf ⟨none, true⟩ " -6/3" = .matched (.integer (-2)) ∧
      outputFor .bundled Config.coding (filesOf "") Arguments.read [" -6/3"] =
        ⟨0, " -6/3 = -2\n", ""⟩ := by
  have hmatch : outcomeOf ⟨none, true⟩ " -6/3" = .matched (.integer (-2)) := by
    rw [outcomeOf, grammar_eq]
    rfl
  obtain ⟨text, hinteger, -, hplain, -⟩ :=
    outputFor_single .bundled Config.coding (filesOf "") isConventional_read hmatch
  refine ⟨isConventional_read, hmatch, ?_⟩
  rw [hplain (by decide), hinteger (-2) rfl]
  rfl

/-- A quotient that begins with a sign is refused, although it has a value. -/
theorem leading_sign_refused :
    outcomeOf ⟨none, true⟩ "-6/3" = .matched (.integer (-2)) ∧
      outputFor .bundled Config.coding (filesOf "") Arguments.read ["-6/3"] = misuse ∧
      outputFor .bundled Config.coding (filesOf "") Arguments.read ["-6/3"] ≠
        ⟨0, "-6/3 = -2\n", ""⟩ := by
  have hmatch : outcomeOf ⟨none, true⟩ "-6/3" = .matched (.integer (-2)) := by
    rw [outcomeOf, grammar_eq]
    rfl
  have hrefused : outputFor .bundled Config.coding (filesOf "") Arguments.read ["-6/3"] = misuse :=
    rfl
  refine ⟨hmatch, hrefused, ?_⟩
  rw [hrefused]
  decide

end

end OrderedChoice.Calculator
