import DawScript.Proofs.PhraseCompleteness
import DawScript.Proofs.TokenList
import DawScript.Syntax.Grammar

/-!
# Programs of the grammar

Which words of tokens derive which calls, chains and programs, and that a list of tokens is read as
a program exactly if its word derives the program (`ofTokens_eq_ok_iff_derives`).
-/

set_option autoImplicit false

namespace DawScript

/-- The derivation of a call: a name and arguments, with line ends before the name and before the
parenthesis. -/
inductive CallPhrase : List Token → Call → Prop where
  | mk (j k : Nat) (s : String) {w : List Token} {arguments : List (Arg Expr)} :
      Phrase (.group .arguments) w arguments →
      CallPhrase (lineEnds j ++ .name s :: (lineEnds k ++ .leftParen :: w)) ⟨s, arguments⟩

/-- The derivation of a chain: calls with points between them, and line ends before the points. -/
inductive ChainPhrase : List Token → List Call → Prop where
  | one {w : List Token} {c : Call} : CallPhrase w c → ChainPhrase w [c]
  | point (k : Nat) {v w : List Token} {c : Call} {cs : List Call} : CallPhrase v c →
      ChainPhrase w cs → ChainPhrase (v ++ (lineEnds k ++ .dot :: w)) (c :: cs)

/-- The derivation of one or more chains, at least one line end between two of them, up to the end
of the script. -/
inductive ChainsPhrase : List Token → List Chain → Prop where
  | last (k : Nat) {w : List Token} {cs : List Call} : ChainPhrase w cs →
      ChainsPhrase (w ++ (lineEnds k ++ [.endOfScript])) [⟨cs⟩]
  | next (k : Nat) {v w : List Token} {cs : List Call} {chains : List Chain} : ChainPhrase v cs →
      ChainsPhrase w chains → ChainsPhrase (v ++ (lineEnds (k + 1) ++ w)) (⟨cs⟩ :: chains)

/-- The derivation of a program: any number of chains, with line ends before and after them. -/
inductive Program.Derives : List Token → Program → Prop where
  | empty (k : Nat) : Derives (lineEnds k ++ [.endOfScript]) ⟨[]⟩
  | chains (k : Nat) {w : List Token} {chains : List Chain} : ChainsPhrase w chains →
      Derives (lineEnds k ++ w) ⟨chains⟩

theorem end_not_mem_lineEnds (k : Nat) : Token.endOfScript ∉ lineEnds k :=
  fun hmem => nomatch Phrase.mem_lineEnds hmem

theorem CallPhrase.end_not_mem {w : List Token} {c : Call} (h : CallPhrase w c) :
    Token.endOfScript ∉ w := by
  obtain ⟨j, k, s, hgroup⟩ := h
  simp [end_not_mem_lineEnds, hgroup.end_not_mem]

theorem ChainPhrase.end_not_mem {w : List Token} {cs : List Call} (h : ChainPhrase w cs) :
    Token.endOfScript ∉ w := by
  induction h with
  | one hcall => exact hcall.end_not_mem
  | point k hcall _ ih => simp [end_not_mem_lineEnds, hcall.end_not_mem, ih]

/-! ## Line ends in front -/

/-- The line ends in front of a call can be left out. -/
theorem CallPhrase.begins {w : List Token} {c : Call} (h : CallPhrase w c) :
    ∃ j s v, w = lineEnds j ++ .name s :: v ∧ CallPhrase (.name s :: v) c := by
  obtain ⟨j, k, s, hgroup⟩ := h
  exact ⟨j, s, _, rfl, .mk 0 k s hgroup⟩

theorem ChainPhrase.begins {w : List Token} {cs : List Call} (h : ChainPhrase w cs) :
    ∃ j s v, w = lineEnds j ++ .name s :: v ∧ ChainPhrase (.name s :: v) cs := by
  cases h with
  | one hcall =>
    obtain ⟨j, s, v, rfl, hname⟩ := hcall.begins
    exact ⟨j, s, v, rfl, .one hname⟩
  | point k hcall hmore =>
    obtain ⟨j, s, v, rfl, hname⟩ := hcall.begins
    refine ⟨j, s, _, ?_, .point k hname hmore⟩
    rw [List.append_assoc]
    rfl

theorem ChainsPhrase.begins {w : List Token} {chains : List Chain} (h : ChainsPhrase w chains) :
    ∃ j s v, w = lineEnds j ++ .name s :: v ∧ ChainsPhrase (.name s :: v) chains := by
  cases h with
  | last k hchain =>
    obtain ⟨j, s, v, rfl, hname⟩ := hchain.begins
    refine ⟨j, s, _, ?_, .last k hname⟩
    rw [List.append_assoc]
    rfl
  | next k hchain hmore =>
    obtain ⟨j, s, v, rfl, hname⟩ := hchain.begins
    refine ⟨j, s, _, ?_, .next k hname hmore⟩
    rw [List.append_assoc]
    rfl

/-- No chain begins at the end of the script. -/
theorem ChainsPhrase.ne_end {w : List Token} {chains : List Chain} (h : ChainsPhrase w chains) :
    w ≠ [.endOfScript] := by
  obtain ⟨j, s, v, rfl, -⟩ := h.begins
  cases j <;> nofun

namespace Grammar

open Tokens

/-! ## What is read is derived -/

theorem call_sound {ts : Tokens} {c : Call} {r : Tokens} (hread : Reads (call ts) c r) :
    ∃ w, ts.kinds = w ++ r.kinds ∧ CallPhrase w c := by
  obtain ⟨⟨name, after, _⟩, hname, hread⟩ := hread.of_bind
  obtain ⟨⟨rest, _⟩, hexpect, hread⟩ := hread.of_bind
  obtain ⟨⟨arguments, more, _⟩, harguments, hread⟩ := hread.of_bind
  obtain ⟨rfl, rfl⟩ := hread.of_ok
  obtain ⟨j, hj⟩ := kinds_of_expectName ⟨_, hname⟩
  obtain ⟨k, hk⟩ := kinds_of_take? (take?_of_expect hexpect)
  obtain ⟨w, hw, hgroup⟩ := args_sound (expr_sound _) ⟨_, harguments⟩
  refine ⟨_, ?_, .mk j k name hgroup⟩
  rw [hj, hk, hw]
  simp only [List.append_assoc, List.cons_append]

theorem moreCalls_sound {input ts : Tokens} {hts : ts.length < input.length} {cs : List Call}
    {r : Tokens} (hread : Reads (moreCalls ts hts) cs r) :
    (cs = [] ∧ r = ts) ∨ ∃ k w, ts.kinds = lineEnds k ++ .dot :: (w ++ r.kinds) ∧
      ChainPhrase w cs := by
  -- each call that goes on with the chain leaves fewer tokens
  induction hm : ts.length using Nat.strongRecOn generalizing ts cs with
  | ind m ih =>
    subst hm
    rw [moreCalls] at hread
    split at hread
    · obtain ⟨rfl, rfl⟩ := hread.of_ok
      exact Or.inl ⟨rfl, rfl⟩
    · next rest hrest htake =>
      obtain ⟨⟨first, after, hafter⟩, hfirst, hread⟩ := hread.of_bind
      obtain ⟨⟨others, more, _⟩, hothers, hread⟩ := hread.of_bind
      obtain ⟨rfl, rfl⟩ := hread.of_ok
      obtain ⟨k, hk⟩ := kinds_of_take? htake
      obtain ⟨v, hv, hcall⟩ := call_sound ⟨_, hfirst⟩
      refine Or.inr ⟨k, ?_⟩
      rcases ih after.length (Nat.lt_trans hafter hrest) ⟨_, hothers⟩ rfl with
        ⟨rfl, rfl⟩ | ⟨j, w, hw, hchain⟩
      · exact ⟨v, by rw [hk, hv], .one hcall⟩
      · refine ⟨_, ?_, .point j hcall hchain⟩
        rw [hk, hv, hw]
        simp only [List.append_assoc, List.cons_append]

theorem chain_sound {ts : Tokens} {c : Chain} {r : Tokens} (hread : Reads (chain ts) c r) :
    ∃ w, ts.kinds = w ++ r.kinds ∧ ChainPhrase w c.calls := by
  obtain ⟨⟨first, after, _⟩, hfirst, hread⟩ := hread.of_bind
  obtain ⟨⟨others, rest, _⟩, hothers, hread⟩ := hread.of_bind
  obtain ⟨rfl, rfl⟩ := hread.of_ok
  obtain ⟨v, hv, hcall⟩ := call_sound ⟨_, hfirst⟩
  rcases moreCalls_sound ⟨_, hothers⟩ with ⟨rfl, rfl⟩ | ⟨k, w, hw, hchain⟩
  · exact ⟨v, hv, .one hcall⟩
  · refine ⟨_, ?_, .point k hcall hchain⟩
    rw [hv, hw]
    simp only [List.append_assoc, List.cons_append]

/-- The chains that are read begin with one that ends at a line end or at the end of the script. -/
theorem chains_eq_ok {ts : Tokens} {cs : List Chain} (h : chains ts = .ok cs) :
    (ts.atEnd = true ∧ cs = []) ∨ ∃ first rest others, Reads (chain ts) first rest ∧
      (rest.atEnd = true ∨ rest.front.token = .newline) ∧
      chains (skipNewlines rest) = .ok others ∧ cs = first :: others := by
  rw [chains] at h
  split at h
  · next hend =>
    cases h
    exact Or.inl ⟨hend, rfl⟩
  · cases hchain : chain ts with
    | error fault =>
      rw [hchain] at h
      cases h
    | ok c =>
      obtain ⟨first, rest, hless⟩ := c
      rw [hchain] at h
      simp only [Bind.bind, Except.bind] at h
      split at h
      · cases h
      · next hstop =>
        cases hothers : chains (skipNewlines rest) with
        | error fault =>
          rw [hothers] at h
          cases h
        | ok others =>
          rw [hothers] at h
          cases h
          refine Or.inr ⟨first, rest, others, ⟨hless, rfl⟩, ?_, hothers, rfl⟩
          simpa [Decidable.or_iff_not_imp_left] using hstop

theorem chains_sound {ts : Tokens} (hended : ts.Ended) {cs : List Chain}
    (hread : chains ts = .ok cs) :
    (cs = [] ∧ ts.kinds = [.endOfScript]) ∨ ChainsPhrase ts.kinds cs := by
  -- that the end of the script comes last is what makes the reader stop only there
  induction hm : ts.length using Nat.strongRecOn generalizing ts cs with
  | ind m ih =>
    subst hm
    rcases chains_eq_ok hread with ⟨hend, rfl⟩ | ⟨first, rest, others, hfirst, hstop, hothers, rfl⟩
    · exact Or.inl ⟨rfl, hended.kinds_of_atEnd hend⟩
    · obtain ⟨w, hw, hchain⟩ := chain_sound hfirst
      obtain ⟨k, hk⟩ := kinds_skipNewlines rest
      have hrest : Ended rest := hended.of_append hw hchain.end_not_mem
      have hskip : Ended (skipNewlines rest) := hrest.of_append hk (end_not_mem_lineEnds k)
      have hshorter : (skipNewlines rest).length < ts.length :=
        Nat.lt_of_le_of_lt (skipNewlines_length_le rest) hfirst.1
      rw [hw, hk]
      rcases ih _ hshorter hskip hothers rfl with ⟨rfl, hlast⟩ | hmore
      · rw [hlast]
        exact Or.inr (.last k hchain)
      · cases k with
        | zero =>
          -- without a line end the script ends here, and no chain comes after the end
          have hend : rest.atEnd = true := by
            refine hstop.resolve_right fun hnewline => head_skipNewlines rest ?_
            rw [lineEnds, List.replicate_zero, List.nil_append] at hk
            rw [← hk]
            cases rest with
            | nil => cases hnewline
            | cons t more => exact congrArg some hnewline
          have hkinds := hrest.kinds_of_atEnd hend
          rw [hk] at hkinds
          exact absurd hkinds hmore.ne_end
        | succ k => exact Or.inr (.next k hchain hmore)

/-! ## What is derived is read -/

theorem call_complete {w : List Token} {c : Call} (h : CallPhrase w c) {ts : Tokens}
    {v : List Token} (hts : ts.kinds = w ++ v) : ∃ r, r.kinds = v ∧ Reads (call ts) c r := by
  cases h with
  | @mk j k s w arguments hgroup =>
  have hword : ts.kinds = lineEnds j ++ .name s :: (lineEnds k ++ .leftParen :: (w ++ v)) := by
    rw [hts]
    simp only [List.append_assoc, List.cons_append]
  obtain ⟨after, ⟨hless, hname⟩, hafter⟩ := expectName_of_kinds hword
  obtain ⟨⟨rest, hrest⟩, htake, hinside⟩ := take?_of_kinds hafter nofun
  obtain ⟨r, hr, hread⟩ := hgroup.complete ts.length rest (Nat.lt_trans hrest hless) v hinside
  -- name, parenthesis and arguments, in the order in which they are read
  refine ⟨r, hr, Reads.bind hname (Reads.bind (expect_of_take? htake) ?_)⟩
  exact Reads.bind hread.2 (Reads.ok _)

/-- What follows a chain: line ends, and then a token that does not go on with it. -/
def FollowsChain (v : List Token) : Prop :=
  ∃ k t u, v = lineEnds k ++ t :: u ∧ t ≠ .newline ∧ t ≠ .dot

theorem FollowsChain.no_point {ts : Tokens} (h : FollowsChain ts.kinds) :
    take? .dot ts = none := by
  obtain ⟨k, t, u, hts, hnewline, hdot⟩ := h
  refine take?_eq_none hts ?_ ?_
  · exact fun heq => hnewline (Option.some.inj heq)
  · exact fun heq => hdot (Option.some.inj heq)

/-- The first call of a chain is read, and then the others. -/
theorem chain_complete {w : List Token} {cs : List Call} (h : ChainPhrase w cs) {ts : Tokens}
    {v : List Token} (hts : ts.kinds = w ++ v) (hv : FollowsChain v) :
    ∃ first others after r, cs = first :: others ∧ r.kinds = v ∧ Reads (call ts) first after ∧
      ∀ {input : Tokens} (hafter : after.length < input.length),
        Reads (moreCalls after hafter) others r := by
  induction h generalizing ts with
  | one hcall =>
    obtain ⟨after, hkinds, hread⟩ := call_complete hcall hts
    rw [← hkinds] at hv
    refine ⟨_, [], after, after, rfl, hkinds, hread, ?_⟩
    intro _ hafter
    rw [moreCalls, hv.no_point]
    exact Reads.ok hafter
  | point k hcall _ ih =>
    rw [List.append_assoc] at hts
    obtain ⟨after, hkinds, hread⟩ := call_complete hcall hts
    rw [List.append_assoc] at hkinds
    obtain ⟨⟨rest, hrest⟩, htake, hmore⟩ := take?_of_kinds hkinds nofun
    -- the calls after the point are a chain of their own
    obtain ⟨first, others, after', r, rfl, hr, ⟨hless, hfirst⟩, hothers⟩ := ih hmore
    refine ⟨_, first :: others, after, r, rfl, hr, hread, ?_⟩
    intro _ hafter
    rw [moreCalls, htake]
    apply Reads.bind hfirst
    exact Reads.bind (hothers _).2 (Reads.ok _)

/-- A chain is read before the chains after it. -/
theorem chains_cons {s : String} {v z : List Token} {cs : List Call} {others : List Chain}
    (h : ChainPhrase (.name s :: v) cs) {ts : Tokens} (hts : ts.kinds = .name s :: v ++ z)
    (hz : FollowsChain z) (hstop : z.head? = some .endOfScript ∨ z.head? = some .newline)
    (hothers : ∀ r : Tokens, r.kinds = z → chains (skipNewlines r) = .ok others) :
    chains ts = .ok (⟨cs⟩ :: others) := by
  obtain ⟨first, more, after, r, rfl, hr, ⟨hless, hfirst⟩, hmore⟩ := chain_complete h hts hz
  obtain ⟨hless', hmore⟩ := hmore hless
  have hchain : chain ts = .ok ⟨⟨first :: more⟩, r, hless'⟩ := by
    simp only [chain, hfirst, Bind.bind, Except.bind, hmore]
    rfl
  have hbegin : ts.atEnd = false := by
    obtain ⟨position, rest, rfl, -⟩ := eq_cons_of_kinds hts
    rfl
  -- the reader fails where a chain ends in the middle of a line, which it does not do here
  have hend : (!r.atEnd && r.front.token != .newline) = false := by
    rw [← hr] at hstop
    cases r with
    | nil => rcases hstop with hstop | hstop <;> cases hstop
    | cons t rest =>
      rcases hstop with hstop | hstop
      · have ht : t.token = .endOfScript := Option.some.inj hstop
        simp [atEnd, front, ht]
      · have ht : t.token = .newline := Option.some.inj hstop
        simp [front, ht]
  rw [chains, hbegin]
  simp only [Bool.false_eq_true, if_false, hchain, Bind.bind, Except.bind, hend, hothers r hr]
  rfl

theorem lineEnds_append (j k : Nat) : lineEnds j ++ lineEnds k = lineEnds (j + k) :=
  List.replicate_append_replicate

theorem chains_end {ts : Tokens} {k : Nat} (hts : ts.kinds = lineEnds k ++ [.endOfScript]) :
    chains (skipNewlines ts) = .ok [] := by
  obtain ⟨position, rest, hskip, -⟩ := eq_cons_of_kinds (skipNewlines_of_kinds hts nofun)
  rw [hskip, chains]
  rfl

theorem chains_complete {w : List Token} {cs : List Chain} (h : ChainsPhrase w cs) {ts : Tokens}
    {k : Nat} (hts : ts.kinds = lineEnds k ++ w) : chains (skipNewlines ts) = .ok cs := by
  induction h generalizing ts k with
  | last m hchain =>
    -- the line ends in front of a chain are skipped before it is read
    obtain ⟨j, s, v, rfl, hname⟩ := hchain.begins
    rw [List.append_assoc, ← List.append_assoc (lineEnds k), lineEnds_append] at hts
    refine chains_cons hname (skipNewlines_of_kinds hts nofun) ?_ ?_ fun r hr => chains_end hr
    · exact ⟨m, .endOfScript, [], rfl, nofun, nofun⟩
    · cases m with
      | zero => exact Or.inl rfl
      | succ m => exact Or.inr rfl
  | next m hchain hmore ih =>
    obtain ⟨j, s, v, rfl, hname⟩ := hchain.begins
    rw [List.append_assoc, ← List.append_assoc (lineEnds k), lineEnds_append] at hts
    refine chains_cons hname (skipNewlines_of_kinds hts nofun) ?_ (Or.inr rfl) fun r hr => ih hr
    -- the line ends in front of the next chain count as those between the two
    obtain ⟨i, s', u, rfl, -⟩ := hmore.begins
    refine ⟨m + 1 + i, .name s', u, ?_, nofun, nofun⟩
    rw [← List.append_assoc, lineEnds_append]

end Grammar

/-- A program derived from a word is read from all tokens with this word. -/
theorem Program.Derives.ofTokens {w : List Token} {p : Program} (h : Program.Derives w p)
    {ts : Tokens} (hts : ts.kinds = w) : Program.ofTokens ts = .ok p := by
  cases h with
  | empty k =>
    rw [Program.ofTokens, Grammar.chains_end hts]
    rfl
  | chains k hphrase =>
    rw [Program.ofTokens, Grammar.chains_complete hphrase hts]
    rfl

/-- A program that is read is derived from the word of its tokens. -/
theorem derives_of_ofTokens {ts : Tokens} (hended : ts.Ended) {p : Program}
    (h : Program.ofTokens ts = .ok p) : Program.Derives ts.kinds p := by
  obtain ⟨k, hk⟩ := Tokens.kinds_skipNewlines ts
  have hskip : ts.skipNewlines.Ended := hended.of_append hk (end_not_mem_lineEnds k)
  rw [Program.ofTokens] at h
  cases hchains : Grammar.chains ts.skipNewlines with
  | error fault =>
    rw [hchains] at h
    cases h
  | ok cs =>
    rw [hchains] at h
    cases h
    rw [hk]
    rcases Grammar.chains_sound hskip hchains with ⟨rfl, hend⟩ | hphrase
    · rw [hend]
      exact .empty k
    · exact .chains k hphrase

/-- The tokens of a script are read as a program exactly if the grammar derives the program from
their word, and it derives at most one program from a word. -/
theorem ofTokens_eq_ok_iff_derives :
    (∀ (script : String) (ts : Tokens) (p : Program), tokens script = .ok ts →
      (Program.ofTokens ts = .ok p ↔ Program.Derives ts.kinds p)) ∧
    ∀ (w : List Token) (p q : Program), Program.Derives w p → Program.Derives w q → p = q := by
  constructor
  · intro script ts p hts
    exact ⟨derives_of_ofTokens (tokens_ended hts), fun h => h.ofTokens rfl⟩
  · intro w p q hp hq
    -- positions do not matter, so any tokens with this word will do
    have hkinds : Tokens.kinds (w.map fun t => ⟨t, .start⟩) = w := by
      simp [Tokens.kinds, Function.comp_def]
    have hread := hp.ofTokens hkinds
    rw [hq.ofTokens hkinds] at hread
    exact (Except.ok.inj hread).symm

end DawScript
