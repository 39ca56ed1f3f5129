import DawScript.Proofs.Execution
import DawScript.Proofs.ProgramPhrase
import DawScript.Proofs.Spelling

/-!
# Round trip

The text of a canonical program is parsed as the program, and a run of the text is a run of its
calls (`Program.Canonical.parse_and_interpret_text`).
-/

set_option autoImplicit false

namespace DawScript

/-! ## Calls and chains -/

/-- The text of a canonical call is read as the call, whatever comes before and after it. -/
theorem Call.Canonical.scans {c : Call} (h : c.Canonical) : ∃ w, CallPhrase w c ∧
    ∀ previous rest, Scans previous (c.text.toList ++ rest) w (some .rightParen) rest := by
  obtain ⟨w, hw, hscans⟩ := scans_applied h.1 (Expr.Canonical.spells_arguments h.2)
  exact ⟨_, .mk 0 0 c.name hw, hscans⟩

theorem Call.Canonical.begins {c : Call} (h : c.Canonical) :
    ∃ d ds, c.text.toList = d :: ds ∧ Text.startsName d = true := by
  obtain ⟨d, ds, hd, hstart⟩ := h.1.begins
  refine ⟨d, ds ++ '(' :: ((commaSeparated (Expr.argumentTexts c.arguments)).toList ++ [')']), ?_,
    hstart⟩
  rw [Call.text, toList_applied, hd]
  rfl

theorem Chain.toList_text (c : Chain) :
    c.text.toList = ['.'].intercalate (c.calls.map fun call => call.text.toList) := by
  rw [Chain.text, String.toList_intercalate, List.map_map]
  rfl

theorem Program.toList_text (p : Program) :
    p.text.toList = ['\n'].intercalate (p.chains.map fun c => c.text.toList) := by
  rw [Program.text, String.toList_intercalate, List.map_map]
  rfl

/-- Calls with points between them are read as a chain. -/
theorem scans_calls {calls : List Call} (hne : calls ≠ []) (h : ∀ c ∈ calls, c.Canonical) :
    ∃ w, ChainPhrase w calls ∧ ∀ previous rest,
      Scans previous (['.'].intercalate (calls.map fun c => c.text.toList) ++ rest) w
        (some .rightParen) rest := by
  induction calls with
  | nil => exact absurd rfl hne
  | cons c calls ih =>
    obtain ⟨v, hv, hscans⟩ := (h c List.mem_cons_self).scans
    cases calls with
    | nil =>
      refine ⟨v, .one hv, ?_⟩
      intro previous rest
      rw [List.map_singleton, List.intercalate_singleton]
      exact hscans previous rest
    | cons d calls =>
      obtain ⟨w, hw, hmore⟩ := ih nofun fun c' hc' => h c' (List.mem_cons_of_mem c hc')
      refine ⟨_, .point 0 hv hw, ?_⟩
      intro previous rest
      -- a name follows the point, so the point is a token of its own whatever comes before it
      obtain ⟨e, es, he, hstart⟩ := (h d (by simp)).begins
      have hbegins : ∃ more, ['.'].intercalate ((d :: calls).map fun c => c.text.toList) ++ rest =
          e :: more := by
        rw [List.map_cons, intercalate_cons, he]
        exact ⟨_, rfl⟩
      obtain ⟨more, hbegins⟩ := hbegins
      have hmore' := hmore (some .dot) rest
      rw [hbegins] at hmore'
      have hscan := (hscans previous _).trans ((Scans.point hstart more).trans hmore')
      rw [← hbegins] at hscan
      simpa [lineEnds] using hscan

/-- Chains with line ends between them are read as the chains of a program. -/
theorem scans_chains {chains : List Chain} (hne : chains ≠ [])
    (h : ∀ chain ∈ chains, chain.calls ≠ [] ∧ ∀ c ∈ chain.calls, c.Canonical) :
    ∃ w, ChainsPhrase (w ++ [.endOfScript]) chains ∧ ∀ previous,
      Scans previous (['\n'].intercalate (chains.map fun c => c.text.toList)) w
        (some .rightParen) [] := by
  induction chains with
  | nil => exact absurd rfl hne
  | cons chain chains ih =>
    obtain ⟨hcalls, hcanonical⟩ := h chain List.mem_cons_self
    obtain ⟨v, hv, hscans⟩ := scans_calls hcalls hcanonical
    rw [← Chain.toList_text] at hscans
    cases chains with
    | nil =>
      refine ⟨v, .last 0 hv, ?_⟩
      intro previous
      have hscan := hscans previous []
      rw [List.append_nil] at hscan
      rw [List.map_singleton, List.intercalate_singleton]
      exact hscan
    | cons next chains =>
      obtain ⟨w, hw, hmore⟩ := ih nofun fun c' hc' => h c' (List.mem_cons_of_mem chain hc')
      refine ⟨v ++ ([.newline] ++ w), ?_, ?_⟩
      · have hphrase := ChainsPhrase.next 0 hv hw
        simpa [lineEnds] using hphrase
      · -- a chain ends with a parenthesis, and the line end after it is a token
        intro previous
        have hline := Scans.lineEnd (some .rightParen)
          (['\n'].intercalate ((next :: chains).map fun c => c.text.toList))
        have hscan := (hscans previous _).trans (hline.trans (hmore _))
        simpa using hscan

/-! ## Programs -/

/-- The text of a canonical program is read as the program. -/
theorem Program.Canonical.parse_text {p : Program} (h : p.Canonical) :
    Program.parse p.text = .ok p := by
  have htokens : ∃ ts, tokens p.text = .ok ts ∧ Program.Derives (Tokens.kinds ts) p := by
    by_cases hne : p.chains = []
    · -- the empty text has only the end of the script
      obtain ⟨chains⟩ := p
      subst hne
      have hnil : tokens (Program.text ⟨[]⟩) = .ok [⟨.endOfScript, .start⟩] :=
        tokensFrom_nil (show (Lexeme.splitBlanks []).2 = [] from rfl)
      exact ⟨_, hnil, .empty 0⟩
    · obtain ⟨w, hw, hscans⟩ := scans_chains hne h
      have hscan := hscans none
      rw [← Program.toList_text] at hscan
      obtain ⟨ts, hts, hkinds⟩ := hscan.tokens_eq
      refine ⟨ts, hts, ?_⟩
      rw [hkinds]
      exact .chains 0 hw
  obtain ⟨ts, hts, hderives⟩ := htokens
  rw [Program.parse, hts]
  exact hderives.ofTokens rfl

/-- A program with chains is not blank as it is written: its first call has a parenthesis. -/
theorem Program.Canonical.isBlankText_text {p : Program} (h : p.Canonical) (hne : p.chains ≠ []) :
    Text.isBlankText p.text = false := by
  obtain ⟨chain, chains, hchains⟩ := List.exists_cons_of_ne_nil hne
  obtain ⟨hcalls, -⟩ := h chain (by rw [hchains]; exact List.mem_cons_self)
  obtain ⟨c, calls, hc⟩ := List.exists_cons_of_ne_nil hcalls
  have hcall : '(' ∈ c.text.toList := by
    rw [Call.text, toList_applied]
    exact List.mem_append_right _ List.mem_cons_self
  have hmem : '(' ∈ p.text.toList := by
    rw [Program.toList_text, hchains, List.map_cons, intercalate_cons]
    apply List.mem_append_left _
    rw [Chain.toList_text, hc, List.map_cons, intercalate_cons]
    exact List.mem_append_left _ hcall
  rw [Text.isBlankText, List.all_eq_false]
  exact ⟨'(', hmem, by decide⟩

/-- The calls of a canonical program are what is run for its text. -/
theorem Program.Canonical.callsOf_text {p : Program} (h : p.Canonical) (hne : p.chains ≠ []) :
    callsOf p.text = .ok p.calls := by
  rw [callsOf, h.isBlankText_text hne, h.parse_text]
  rfl

/-! ## Deciding whether a program is canonical -/

namespace Value

instance : DecidablePred Canonical
  | .null | .bool _ => inferInstanceAs (Decidable True)
  | .int n => inferInstanceAs (Decidable (n ≠ Int64.minValue))
  | .float x => inferInstanceAs (Decidable (x.isFinite = true ∧ 'e' ∉ (Decimal.shown x).toList))
  | .string s => List.decidableBAll Text.EscapedPlainly s.toList
  | .list _ | .map _ => inferInstanceAs (Decidable False)

end Value

namespace Expr

mutual

/-- Decides whether an expression is canonical. -/
def decideCanonical : (e : Expr) → Decidable e.Canonical
  | .literal v => inferInstanceAs (Decidable v.Canonical)
  | .list items => decideItems items
  | .map entries => decideEntries entries
  | .property root path => inferInstanceAs (Decidable (IsName root ∧ ∀ s ∈ path, IsSegment s))
  | .binary op left right =>
    have := decideCanonical left
    have := decideCanonical right
    inferInstanceAs (Decidable (Canonical left ∧ Canonical right ∧
      op.leftLevel ≤ level left ∧ op.level.tighter ≤ level right))
  | .unary .not e =>
    have := decideCanonical e
    inferInstanceAs (Decidable (Canonical e ∧ .signed ≤ level e))
  | .unary .neg e =>
    have := decideCanonical e
    inferInstanceAs (Decidable (Canonical e ∧ .signed ≤ level e ∧ isNumber e = false))
  | .method target name arguments =>
    have := decideCanonical target
    have := decideItems arguments
    inferInstanceAs (Decidable (Canonical target ∧ .postfixed ≤ level target ∧ IsName name ∧
      CanonicalItems arguments))
  | .call name arguments =>
    have := decideArguments arguments
    inferInstanceAs (Decidable (IsName name ∧ CanonicalArguments arguments))
  | .function name arguments =>
    have := decideArguments arguments
    inferInstanceAs (Decidable (IsName name ∧ CanonicalArguments arguments))

/-- Decides whether all expressions of a list are canonical. -/
def decideItems : (items : List Expr) → Decidable (CanonicalItems items)
  | [] => inferInstanceAs (Decidable True)
  | item :: rest =>
    have := decideCanonical item
    have := decideItems rest
    inferInstanceAs (Decidable (Canonical item ∧ CanonicalItems rest))

/-- Decides whether all entries of a map are canonical. -/
def decideEntries : (entries : List (String × Expr)) → Decidable (CanonicalEntries entries)
  | [] => inferInstanceAs (Decidable True)
  | (name, value) :: rest =>
    have := decideCanonical value
    have := decideEntries rest
    inferInstanceAs (Decidable (IsName name ∧ Canonical value ∧ CanonicalEntries rest))

/-- Decides whether all arguments are canonical. -/
def decideArguments : (arguments : List (Arg Expr)) → Decidable (CanonicalArguments arguments)
  | [] => inferInstanceAs (Decidable True)
  | ⟨keyword, value⟩ :: rest =>
    have := decideCanonical value
    have := decideArguments rest
    inferInstanceAs (Decidable ((∀ k ∈ keyword, IsName k) ∧ Canonical value ∧
      CanonicalArguments rest))

end

instance : DecidablePred Canonical := decideCanonical

instance : DecidablePred CanonicalArguments := decideArguments

end Expr

instance : DecidablePred Call.Canonical := fun _ => inferInstanceAs (Decidable (_ ∧ _))

instance : DecidablePred Program.Canonical := fun _ =>
  inferInstanceAs (Decidable (∀ _ ∈ _, _ ∧ _))

/-! ## Runs -/

/-- A run without calls emits nothing. -/
theorem interpret_nil (env : Env) (actions : Array Action) :
    interpret env [] actions = (.error .noActions, actions) := by
  have hrun : (runCalls env []).exec (env.initial actions) = (.ok (), env.initial actions) := rfl
  rw [interpret_eq, hrun]
  simp only [initial_actions, if_true]

/-- The text of a canonical program is parsed as exactly the program, its calls are those of the
chains in order, and a run of the text ends as a run of the calls does. -/
theorem Program.Canonical.parse_and_interpret_text {p : Program} (h : p.Canonical) :
    Program.parse p.text = .ok p ∧
      (Program.parse p.text).map Program.calls = .ok (p.chains.flatMap Chain.calls) ∧
      ∀ env actions, interpretScript env p.text actions =
        interpret env (p.chains.flatMap Chain.calls) actions := by
  have hparse := h.parse_text
  refine ⟨hparse, by rw [hparse]; rfl, ?_⟩
  intro env actions
  -- a text without chains is blank and is not parsed at all
  by_cases hne : p.chains = []
  · obtain ⟨chains⟩ := p
    subst hne
    exact (interpret_nil env actions).symm
  · rw [interpretScript, callsOf, h.isBlankText_text hne, hparse]
    rfl

/-- Two chains with keywords, a quoted text, a negative number, an operation and a path. -/
def twoChains : Program := ⟨[
  ⟨[⟨"track", [⟨some "name", .literal (.string "a\tb")⟩,
      ⟨some "volume", .literal (.float (-2.5))⟩]⟩, ⟨"mute", []⟩]⟩,
  ⟨[⟨"new_clip", [⟨some "bar",
      .binary .add (.literal (.int 1)) (.property "tracks" ["0", "id"])⟩]⟩]⟩]⟩

theorem parse_and_interpret_twoChains : twoChains.Canonical ∧
    twoChains.text =
      "track(name=\"a\\tb\", volume=-2.5).mute()\nnew_clip(bar=1 + tracks.0.id)" ∧
    Program.parse twoChains.text = .ok twoChains ∧
    ∀ env actions, interpretScript env twoChains.text actions =
      interpret env (twoChains.chains.flatMap Chain.calls) actions := by
  have hcanonical : twoChains.Canonical := by decide +kernel
  obtain ⟨hparse, -, hrun⟩ := hcanonical.parse_and_interpret_text
  exact ⟨hcanonical, by decide +kernel, hparse, hrun⟩

end DawScript
