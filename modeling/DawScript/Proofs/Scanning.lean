import DawScript.Proofs.LexemeReading
import DawScript.Proofs.TokenList

/-!
# Scanning

Texts are scanned piece by piece: `Scans` says which tokens a beginning of a text is read as and
what text is left, and the pieces follow each other (`Scans.trans`). Texts are names when they are
made of the characters of names (`isName_iff`).
-/

set_option autoImplicit false

namespace DawScript

open Lexeme

/-! ## Scanning -/

/-- From the token `previous` on, a text is read as the tokens `w`, of which `last` is the last one,
and goes on with `rest`. -/
def Scans (previous : Option Token) (cs : List Char) (w : List Token) (last : Option Token)
    (rest : List Char) : Prop :=
  ∀ p, ∃ q, (tokensFrom previous p cs).map Tokens.kinds =
    (tokensFrom last q rest).map fun ts => w ++ Tokens.kinds ts

theorem Position.after_append (p : Position) (cs ds : List Char) :
    p.after (cs ++ ds) = (p.after cs).after ds := by
  simp only [Position.after, List.countP_append, Nat.add_assoc]

namespace Scans

variable {previous last : Option Token} {cs rest : List Char} {w : List Token}

theorem refl (previous : Option Token) (cs : List Char) : Scans previous cs [] previous cs :=
  fun p => ⟨p, rfl⟩

theorem trans {next : Option Token} {v : List Token} {ds : List Char}
    (h : Scans previous cs v next ds) (h' : Scans next ds w last rest) :
    Scans previous cs (v ++ w) last rest := by
  intro p
  obtain ⟨q, hq⟩ := h p
  obtain ⟨r, hr⟩ := h' q
  refine ⟨r, ?_⟩
  -- a fault of the later piece is one of the whole, so both sides are mapped outcomes
  calc (tokensFrom previous p cs).map Tokens.kinds
      = ((tokensFrom next q ds).map Tokens.kinds).map (v ++ ·) := by
        rw [hq]
        cases tokensFrom next q ds <;> rfl
    _ = ((tokensFrom last r rest).map fun ts => w ++ Tokens.kinds ts).map (v ++ ·) := by rw [hr]
    _ = (tokensFrom last r rest).map fun ts => v ++ w ++ Tokens.kinds ts := by
        cases tokensFrom last r rest with
        | error fault => rfl
        | ok ts => exact congrArg Except.ok (List.append_assoc v w (Tokens.kinds ts)).symm

/-- A blank in front changes nothing but the positions. -/
theorem blank (h : Scans previous cs w last rest) : Scans previous (' ' :: cs) w last rest := by
  intro p
  obtain ⟨q, hq⟩ := h (p.after [' '])
  refine ⟨q, ?_⟩
  rw [← hq]
  congr 1
  obtain ⟨hblanks, hrest⟩ := splitBlanks_space cs
  have hafter : p.after (splitBlanks (' ' :: cs)).1 =
      (p.after [' ']).after (splitBlanks cs).1 := by
    rw [hblanks, ← Position.after_append]
    rfl
  -- what comes after the blanks is the same, and so are the positions after them
  cases hcs : (splitBlanks cs).2 with
  | nil => rw [tokensFrom_nil (hrest.trans hcs), tokensFrom_nil hcs, hafter]
  | cons c more =>
    by_cases hc : c = '\n'
    · subst hc
      rw [tokensFrom_newline (hrest.trans hcs), tokensFrom_newline hcs, hafter]
    · rw [tokensFrom_char (hrest.trans hcs) hc, tokensFrom_char hcs hc, hafter]

/-- A line end after blanks is a token. -/
theorem lineEnd_of_blanks (h : (splitBlanks cs).2 = '\n' :: rest) :
    Scans previous cs [.newline] (some .newline) rest := by
  intro p
  refine ⟨(p.after (splitBlanks cs).1).nextLine, ?_⟩
  rw [tokensFrom_newline h]
  cases tokensFrom _ _ rest <;> rfl

theorem lineEnd (previous : Option Token) (cs : List Char) :
    Scans previous ('\n' :: cs) [.newline] (some .newline) cs := by
  have hblanks : splitBlanks ('\n' :: cs) = ([], '\n' :: cs) :=
    splitBlanks_cons rfl (by decide) nofun
  exact lineEnd_of_blanks (congrArg Prod.snd hblanks)

/-- One lexeme after blanks is read before the rest of the text. -/
theorem lexeme_of_blanks {c : Char} {l : Lexeme (c :: rest)} (h : (splitBlanks cs).2 = c :: rest)
    (hc : c ≠ '\n') (hread : Lexeme.read previous c rest = .ok l) :
    Scans previous cs [l.token] (some l.token) l.rest := by
  intro p
  refine ⟨(p.after (splitBlanks cs).1).after l.text, ?_⟩
  rw [tokensFrom_char h hc, hread]
  simp only
  cases tokensFrom (some l.token) _ l.rest <;> rfl

/-- One lexeme is read before the rest of the text. -/
theorem lexeme {c : Char} {l : Lexeme (c :: cs)}
    (hblanks : splitBlanks (c :: cs) = ([], c :: cs)) (hc : c ≠ '\n')
    (hread : Lexeme.read previous c cs = .ok l) :
    Scans previous (c :: cs) [l.token] (some l.token) l.rest :=
  lexeme_of_blanks (congrArg Prod.snd hblanks) hc hread

/-- A text that is read up to its end has the tokens that were read, and the end of the script. -/
theorem tokens_eq {script : String} (h : Scans none script.toList w last []) :
    ∃ ts, tokens script = .ok ts ∧ Tokens.kinds ts = w ++ [.endOfScript] := by
  obtain ⟨q, hq⟩ := h .start
  rw [tokensFrom_nil (show (splitBlanks []).2 = [] from rfl)] at hq
  cases htokens : tokensFrom none .start script.toList with
  | error fault =>
    rw [htokens] at hq
    cases hq
  | ok ts =>
    rw [htokens] at hq
    exact ⟨ts, htokens, Except.ok.inj hq⟩

/-! ### Names -/

/-- A name or a keyword is read up to the first character that does not go on with it. -/
theorem word (previous : Option Token) {c : Char} (hstart : Text.startsName c = true)
    (hcont : cs.all Text.continuesName = true) (hrest : EndsName rest) :
    Scans previous (c :: cs ++ rest) [wordToken (c :: cs)] (some (wordToken (c :: cs))) rest := by
  obtain ⟨hvisible, -, hslash, -⟩ := visible_of_startsName hstart
  -- what begins a name also goes on with one
  have hall : ∀ d ∈ c :: cs, Text.continuesName d = true := by
    intro d hd
    rcases List.mem_cons.1 hd with rfl | hd
    · exact Text.continuesName_of_startsName hstart
    · exact List.all_eq_true.1 hcont d hd
  obtain ⟨htake, hdrop⟩ := takeWhile_append_of hall hrest
  have hread : Lexeme.read previous c (cs ++ rest) = .ok (Lexeme.word c (cs ++ rest) hstart) :=
    read_word hstart
  have hscan := lexeme (splitBlanks_cons hvisible.space hvisible.hash fun h => absurd h hslash)
    hvisible.lineEnd hread
  simp only [Lexeme.word] at hscan
  rw [← List.cons_append, htake, hdrop] at hscan
  exact hscan

/-! ### Signs -/

/-- A sign of one character is read, unless it makes another sign with the next character or begins
a number. -/
theorem sign {c : Char} {t : Token} (h : charToken? c = some t)
    (hpair : ∀ d ∈ cs.head?, pairToken? c d = none) (hslash : c = '/' → cs.head? ≠ some '/')
    (hdot : c = '.' → startsWithDigit cs = true → endsValue previous = true) :
    Scans previous (c :: cs) [t] (some t) cs := by
  obtain ⟨hvisible, -⟩ := visible_of_charToken? h
  obtain ⟨l, hl, rfl, hrest⟩ := read_sign h hpair hdot
  have hscan := lexeme (splitBlanks_cons hvisible.space hvisible.hash hslash) hvisible.lineEnd hl
  rwa [hrest] at hscan

/-- Brackets and commas are read whatever comes after them. -/
theorem mark (previous : Option Token) {c : Char} {t : Token} (h : charToken? c = some t)
    (hc : c ∉ ['=', '!', '<', '>', '/', '.']) (cs : List Char) :
    Scans previous (c :: cs) [t] (some t) cs := by
  -- the first four begin signs of two characters, the others comments and numbers
  simp only [List.mem_cons, List.not_mem_nil, or_false, not_or] at hc
  obtain ⟨hequal, hnot, hless, hgreater, hslash, hdot⟩ := hc
  refine sign h ?_ (fun h => absurd h hslash) (fun h => absurd h hdot)
  intro d _
  unfold pairToken?
  split
  · exact absurd rfl hequal
  · exact absurd rfl hnot
  · exact absurd rfl hless
  · exact absurd rfl hgreater
  · rfl

/-- A point is read before a name. -/
theorem point {c : Char} (hc : Text.startsName c = true) (cs : List Char) :
    Scans previous ('.' :: c :: cs) [.dot] (some .dot) (c :: cs) := by
  refine sign rfl ?_ nofun ?_
  · intro d _
    simp [pairToken?]
  · intro _ hdigit
    rw [startsWithDigit, not_digit_of_startsName hc] at hdigit
    cases hdigit

/-- After a value, a point is read before any segment of a path. -/
theorem point_of_endsValue (h : endsValue previous = true) (cs : List Char) :
    Scans previous ('.' :: cs) [.dot] (some .dot) cs :=
  sign rfl (fun d _ => by simp [pairToken?]) nofun (fun _ _ => h)

/-- An operator is read before a blank. -/
theorem operator (previous : Option Token) (op : BinaryOp) (cs : List Char) :
    Scans previous (op.symbol.toList ++ ' ' :: cs) [op.token] (some op.token) (' ' :: cs) := by
  have hblank : EndsName (' ' :: cs) := endsName_cons (by decide) cs
  have hsign {c : Char} {t : Token} (h : charToken? c = some t) (hpair : pairToken? c ' ' = none)
      (hdot : c ≠ '.') : Scans previous (c :: ' ' :: cs) [t] (some t) (' ' :: cs) := by
    refine sign h ?_ (fun _ => by simp) fun heq => absurd heq hdot
    intro d hd
    cases hd
    exact hpair
  have hpair {c d : Char} {t : Token} (h : pairToken? c d = some t) :
      Scans previous (c :: d :: ' ' :: cs) [t] (some t) (' ' :: cs) := by
    obtain ⟨hvisible, -, -, -, hslash⟩ := visible_of_pairToken? h
    obtain ⟨l, hl, rfl, hrest⟩ := read_pair previous h (' ' :: cs)
    have hscan := lexeme (splitBlanks_cons hvisible.space hvisible.hash fun h => absurd h hslash)
      hvisible.lineEnd hl
    rwa [hrest] at hscan
  cases op with
  | add => exact hsign rfl rfl (by decide)
  | sub => exact hsign rfl rfl (by decide)
  | mul => exact hsign rfl rfl (by decide)
  | div => exact hsign rfl rfl (by decide)
  | eq => exact hpair rfl
  | ne => exact hpair rfl
  | lt => exact hsign rfl rfl (by decide)
  | gt => exact hsign rfl rfl (by decide)
  | le => exact hpair rfl
  | ge => exact hpair rfl
  -- the two operators that are words end where a name would end
  | and => exact word previous (startsName_of_isAlpha rfl) (continuesName_of_letters rfl) hblank
  | or => exact word previous (startsName_of_isAlpha rfl) (continuesName_of_letters rfl) hblank

/-! ### Numbers and strings -/

theorem numberToken_toDigits {n : Nat} (h : (n : Int) < wordLimit) :
    numberToken (Nat.toDigits 10 n) [] = .ok (.integer n) := by
  have hfits : fitsWord n = true := by
    rw [fitsWord_iff, wordLimit] at *
    omega
  simp only [numberToken, Decimal.natOfDigits_toDigits, hfits, if_true]

theorem isDigit_toDigits (n : Nat) : ∀ d ∈ Nat.toDigits 10 n, d.isDigit = true :=
  fun _ => Nat.isDigit_of_mem_toDigits (by decide) (by decide)

/-- A digit that begins a number begins its token. -/
theorem digit {c : Char} {l : Lexeme (c :: cs)} (hc : c.isDigit = true)
    (hread : Lexeme.read previous c cs = .ok l) :
    Scans previous (c :: cs) [l.token] (some l.token) l.rest := by
  obtain ⟨hvisible, -, hslash, -⟩ := visible_of_isDigit hc
  exact lexeme (splitBlanks_cons hvisible.space hvisible.hash fun h => absurd h hslash)
    hvisible.lineEnd hread

/-- The digits of an integer are read as the integer. -/
theorem integer {n : Nat} (hn : (n : Int) < wordLimit) (hprevious : previous ≠ some .dot)
    (hrest : Ends rest) :
    Scans previous (Nat.toDigits 10 n ++ rest) [.integer n] (some (.integer n)) rest := by
  have hdigits := isDigit_toDigits n
  have htoken := numberToken_toDigits hn
  cases hn : Nat.toDigits 10 n with
  | nil => exact absurd hn Nat.toDigits_ne_nil
  | cons c cs =>
    rw [hn] at hdigits htoken
    obtain ⟨l, hl, hlt, hlr⟩ := read_number hprevious hdigits hrest.noName.noDigit
      (by rw [hrest.noFraction]; exact htoken)
    have hscan := digit (hdigits c List.mem_cons_self) hl
    rwa [hlt, hlr, hrest.noFraction] at hscan

/-- After a point, the digits of an integer are read as the integer. -/
theorem position {n : Nat} (hn : (n : Int) < wordLimit) (hrest : EndsName rest) :
    Scans (some .dot) (Nat.toDigits 10 n ++ rest) [.integer n] (some (.integer n)) rest := by
  have hdigits := isDigit_toDigits n
  have htoken := numberToken_toDigits hn
  cases hn : Nat.toDigits 10 n with
  | nil => exact absurd hn Nat.toDigits_ne_nil
  | cons c cs =>
    rw [hn] at hdigits htoken
    obtain ⟨l, hl, hlt, hlr⟩ := read_position hdigits hrest.noDigit htoken
    have hscan := digit (hdigits c List.mem_cons_self) hl
    rwa [hlt, hlr] at hscan

/-- Digits around a point are read as the number nearest to them. -/
theorem decimal {whole fraction : List Char} (hwhole : whole ≠ []) (hfraction : fraction ≠ [])
    (hdigits : ∀ d ∈ whole ++ fraction, d.isDigit = true) (hprevious : previous ≠ some .dot)
    (hrest : EndsName rest) {x : Float}
    (hx : Decimal.nearest (Decimal.natOfDigits (whole ++ fraction)) (-fraction.length) = x) :
    Scans previous (whole ++ '.' :: fraction ++ rest) [.number x] (some (.number x)) rest := by
  subst hx
  -- a digit follows the point, so the point and the digits after it are the fraction
  have hfractions : splitFraction ('.' :: fraction ++ rest) = ('.' :: fraction, rest) := by
    cases fraction with
    | nil => exact absurd rfl hfraction
    | cons d ds =>
      have hds : ∀ e ∈ d :: ds, e.isDigit = true :=
        fun e he => hdigits e (List.mem_append_right _ he)
      obtain ⟨htake, hdrop⟩ := takeWhile_append_of hds hrest.noDigit
      rw [List.cons_append] at htake hdrop
      simp only [splitFraction, List.cons_append, hds d List.mem_cons_self, if_true, htake, hdrop]
  cases whole with
  | nil => exact absurd rfl hwhole
  | cons c cs =>
    have hcs : ∀ d ∈ c :: cs, d.isDigit = true := fun d hd => hdigits d (List.mem_append_left _ hd)
    have hpoint : ∀ d ∈ ('.' :: fraction ++ rest).head?, d.isDigit = false :=
      fun d hd => by cases hd; rfl
    obtain ⟨l, hl, hlt, hlr⟩ := read_number hprevious hcs hpoint (by rw [hfractions]; rfl)
    have hscan := digit (hcs c List.mem_cons_self) hl
    rw [hlt, hlr, hfractions] at hscan
    rw [List.append_assoc]
    exact hscan

/-- A quoted text is read as the text. -/
theorem quoted {s : String} (h : ∀ c ∈ s.toList, Text.EscapedPlainly c) :
    Scans previous ((Text.quoted s).toList ++ rest) [.string s] (some (.string s)) rest := by
  obtain ⟨l, hl, hlt, hlr⟩ := read_quoted previous h rest
  have hscan := lexeme (splitBlanks_cons (show isSpace '"' = false from rfl) (by decide) nofun)
    (by decide) hl
  rw [hlt, hlr] at hscan
  simp only [Text.quoted, String.toList_ofList, List.cons_append, List.append_assoc,
    List.nil_append]
  exact hscan

end Scans

/-! ## Names -/

theorem Lexeme.wordToken_eq_name {w : List Char} {s : String} (h : wordToken w = .name s) :
    w = s.toList := by
  unfold wordToken at h
  split at h
  all_goals first
    | cases h; done
    | skip
  injection h with h
  rw [← h, String.toList_ofList]

theorem kinds_of_cons {t : PlacedToken} {x : Except Fault Tokens} {w : List Token}
    (h : (x.map (t :: ·)).map Tokens.kinds = .ok w) : ∃ v, w = t.token :: v := by
  cases x with
  | error fault => cases h
  | ok ts =>
    cases h
    exact ⟨Tokens.kinds ts, rfl⟩

/-- A text is a name exactly if it is made of the characters of names and is no keyword. -/
theorem isName_iff {s : String} : IsName s ↔ ∃ c cs, s.toList = c :: cs ∧
    Text.startsName c = true ∧ cs.all Text.continuesName = true ∧
    Lexeme.wordToken (c :: cs) = .name s := by
  constructor
  · intro h
    rw [IsName, tokens] at h
    cases hblanks : (Lexeme.splitBlanks s.toList).2 with
    | nil =>
      rw [tokensFrom_nil hblanks] at h
      cases h
    | cons c cs =>
      by_cases hc : c = '\n'
      · subst hc
        rw [tokensFrom_newline hblanks] at h
        obtain ⟨v, hv⟩ := kinds_of_cons h
        cases hv
      · rw [tokensFrom_char hblanks hc] at h
        cases hread : Lexeme.read none c cs with
        | error cause =>
          rw [hread] at h
          cases h
        | ok l =>
          rw [hread] at h
          obtain ⟨v, hv⟩ := kinds_of_cons h
          have ht : l.token = .name s := (List.cons.inj hv).1.symm
          obtain ⟨hstart, rfl⟩ := Lexeme.read_name hread ht
          -- the word is as long as the whole text, so there is nothing before it or after it
          have hword := Lexeme.wordToken_eq_name ht
          have hlength := congrArg List.length (Lexeme.splitBlanks_append s.toList)
          rw [hblanks, List.length_append, ← hword] at hlength
          have hprefix := List.takeWhile_prefix (l := c :: cs) Text.continuesName
          have hall := hprefix.eq_of_length_le (by omega)
          refine ⟨c, cs, hword.symm.trans hall, hstart, ?_, ?_⟩
          · apply List.all_eq_true.2
            intro d hd
            have hmem : d ∈ (c :: cs).takeWhile Text.continuesName := by
              rw [hall]
              exact List.mem_cons_of_mem c hd
            exact List.all_eq_true.1 List.all_takeWhile d hmem
          · rw [← hall]
            exact ht
  · -- and such characters are scanned as one word up to the end of the text
    rintro ⟨c, cs, hs, hstart, hcont, hword⟩
    have hend : EndsName [] := nofun
    have hscan := Scans.word none hstart hcont hend
    rw [List.append_nil, ← hs] at hscan
    obtain ⟨ts, htokens, hkinds⟩ := hscan.tokens_eq
    rw [IsName, htokens]
    refine congrArg Except.ok (hkinds.trans ?_)
    rw [hs, hword]
    rfl

instance (s : String) : Decidable (IsName s) :=
  match hs : s.toList with
  | [] => isFalse fun h => by
    obtain ⟨c, cs, hcons, -⟩ := isName_iff.1 h
    rw [hs] at hcons
    cases hcons
  | c :: cs => decidable_of_iff (Text.startsName c = true ∧
      cs.all Text.continuesName = true ∧ Lexeme.wordToken (c :: cs) = .name s) <| by
    rw [isName_iff, hs]
    constructor
    · exact fun h => ⟨c, cs, rfl, h⟩
    · rintro ⟨d, ds, hcons, h⟩
      cases hcons
      exact h

instance (s : String) : Decidable (IsSegment s) :=
  decidable_of_iff (IsName s ∨ ((Decimal.natOfDigits s.toList : Nat) : Int) < wordLimit ∧
      s = toString (Decimal.natOfDigits s.toList)) <| by
    rw [IsSegment]
    refine or_congr_right ⟨fun h => ⟨_, h⟩, ?_⟩
    rintro ⟨n, hn, rfl⟩
    rw [Nat.toString_eq_repr, Nat.toList_repr, Decimal.natOfDigits_toDigits]
    exact ⟨hn, rfl⟩

end DawScript
