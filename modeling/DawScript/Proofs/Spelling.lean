import DawScript.Proofs.Phrase
import DawScript.Proofs.Scanning

/-!
# Spelling

The text of a canonical expression is scanned as words from which the expression derives
(`Expr.Canonical.spells`). The text is given together with what stands around it: a point before it
would make a number in it a segment of a path, and a character that goes on with a name or a number
would make its last word longer.
-/

set_option autoImplicit false

namespace DawScript

/-- A text spells an expression or an element of a group: wherever it does not follow a point and is
not gone on with, it is scanned as a word that derives it. No such text begins with an equals
sign. -/
structure Spells (n : Nonterminal) (t : List Char) (x : n.Meaning) : Prop where
  begins : ∃ c cs, t = c :: cs ∧ c ≠ '='
  scans : ∃ w, Phrase n w x ∧ ∀ previous rest, previous ≠ some Token.dot → Ends rest →
    ∃ last, Scans previous (t ++ rest) w last rest

namespace Spells

variable {n : Nonterminal} {t : List Char} {x : n.Meaning}

/-- What derives from the same words is spelled by the same texts. -/
theorem imp {m : Nonterminal} {y : m.Meaning} (h : Spells n t x)
    (hphrase : ∀ w, Phrase n w x → Phrase m w y) : Spells m t y := by
  obtain ⟨w, hw, hscans⟩ := h.scans
  exact ⟨h.begins, w, hphrase w hw, hscans⟩

theorem loosen {l m : Level} {e : Expr} (h : Spells (.expr m) t e) (hle : l ≤ m) :
    Spells (.expr l) t e :=
  h.imp fun _ hw => hw.loosen hle

end Spells

/-! ## Names -/

section Names

variable {s : String} {rest : List Char}

theorem IsName.begins (h : IsName s) : ∃ c cs, s.toList = c :: cs ∧ Text.startsName c = true := by
  obtain ⟨c, cs, hs, hstart, -⟩ := isName_iff.1 h
  exact ⟨c, cs, hs, hstart⟩

/-- No name begins with an equals sign. -/
theorem IsName.begins_unequal (h : IsName s) : ∃ c cs, s.toList = c :: cs ∧ c ≠ '=' := by
  obtain ⟨c, cs, hs, hstart⟩ := h.begins
  obtain ⟨-, -, -, hequal⟩ := visible_of_startsName hstart
  exact ⟨c, cs, hs, hequal⟩

/-- A text that goes on begins as before. -/
theorem begins_append {t : List Char} (h : ∃ c cs, t = c :: cs ∧ c ≠ '=') (more : List Char) :
    ∃ c cs, t ++ more = c :: cs ∧ c ≠ '=' := by
  obtain ⟨c, cs, rfl, hequal⟩ := h
  exact ⟨c, cs ++ more, rfl, hequal⟩

theorem IsName.scans (h : IsName s) (previous : Option Token) (hrest : EndsName rest) :
    Scans previous (s.toList ++ rest) [.name s] (some (.name s)) rest := by
  obtain ⟨c, cs, hs, hstart, hcont, hword⟩ := isName_iff.1 h
  rw [hs, ← hword]
  exact Scans.word previous hstart hcont hrest

/-- A point and a name are read after any token. -/
theorem IsName.scans_point (h : IsName s) (previous : Option Token) (hrest : EndsName rest) :
    Scans previous ('.' :: (s.toList ++ rest)) [.dot, .name s] (some (.name s)) rest := by
  obtain ⟨c, cs, hs, hstart⟩ := h.begins
  have hname := h.scans (some .dot) hrest
  rw [hs] at hname ⊢
  exact (Scans.point hstart _).trans hname

theorem IsName.ends_point (h : IsName s) (rest : List Char) : Ends ('.' :: (s.toList ++ rest)) := by
  obtain ⟨c, cs, hs, hstart⟩ := h.begins
  rw [hs]
  exact DawScript.ends_point hstart _

/-- A segment of a path is read after a point. -/
theorem IsSegment.scans (h : IsSegment s) : ∃ t, Segment t s ∧ Lexeme.endsValue (some t) = true ∧
    ∀ rest, EndsName rest → Scans (some .dot) (s.toList ++ rest) [t] (some t) rest := by
  rcases h with h | ⟨n, hn, rfl⟩
  · exact ⟨.name s, .name s, rfl, fun rest hrest => h.scans (some .dot) hrest⟩
  · refine ⟨.integer n, .position n, rfl, ?_⟩
    intro rest hrest
    rw [Nat.toString_eq_repr, Nat.toList_repr]
    exact Scans.position hn hrest

end Names

/-! ## Paths -/

/-- A text between others stands in front of each of them but the first. -/
theorem intercalate_cons (c : Char) (x : List Char) (xs : List (List Char)) :
    [c].intercalate (x :: xs) = x ++ xs.flatMap (c :: ·) := by
  induction xs generalizing x with
  | nil => simp
  | cons y ys ih => rw [List.intercalate_cons_cons, ih, List.flatMap_cons]; simp

/-- A path goes on with a point, or ends where the text after it does. -/
theorem endsName_path (path : List String) {rest : List Char} (hrest : EndsName rest) :
    EndsName ((path.map String.toList).flatMap ('.' :: ·) ++ rest) := by
  cases path with
  | nil => exact hrest
  | cons s path => exact endsName_point _

theorem spells_path {path : List String} (h : ∀ s ∈ path, IsSegment s) :
    ∃ v, (∀ w root done, Phrase (.expr .postfixed) w (.property root done) →
        Phrase (.expr .postfixed) (w ++ v) (.property root (done ++ path))) ∧
      ∀ previous rest, Lexeme.endsValue previous = true → EndsName rest →
        ∃ last, Scans previous ((path.map String.toList).flatMap ('.' :: ·) ++ rest) v last
          rest := by
  induction path with
  | nil =>
    refine ⟨[], ?_, fun previous rest _ _ => ⟨previous, Scans.refl _ _⟩⟩
    intro w root done hphrase
    rwa [List.append_nil, List.append_nil]
  | cons s path ih =>
    obtain ⟨t, hsegment, hvalue, hscan⟩ := (h s List.mem_cons_self).scans
    obtain ⟨v, hphrase, hscans⟩ := ih fun s' hs' => h s' (List.mem_cons_of_mem s hs')
    refine ⟨[.dot, t] ++ v, ?_, ?_⟩
    · intro w root done hdone
      have hmore := hphrase _ root (done ++ [s]) (.segment hdone hsegment)
      rwa [List.append_assoc, List.append_assoc] at hmore
    · intro previous rest hprevious hrest
      obtain ⟨last, hlast⟩ := hscans (some t) rest hvalue hrest
      have hhead := endsName_path path hrest
      refine ⟨last, ?_⟩
      -- after a value even a digit does not make a number of the point
      have hpoint := Scans.point_of_endsValue hprevious
        (s.toList ++ ((path.map String.toList).flatMap ('.' :: ·) ++ rest))
      rw [List.map_cons, List.flatMap_cons, List.append_assoc]
      exact (hpoint.trans (hscan _ hhead)).trans hlast

theorem spells_property {root : String} {path : List String} (hroot : IsName root)
    (hpath : ∀ s ∈ path, IsSegment s) :
    Spells (.expr .postfixed) (".".intercalate (root :: path)).toList (.property root path) := by
  have htext : (".".intercalate (root :: path)).toList =
      root.toList ++ (path.map String.toList).flatMap ('.' :: ·) := by
    rw [String.toList_intercalate, List.map_cons]
    exact intercalate_cons '.' _ _
  obtain ⟨v, hphrase, hscans⟩ := spells_path hpath
  rw [htext]
  refine ⟨begins_append hroot.begins_unequal _, _,
    hphrase _ root [] ((Phrase.name root).loosen (by decide)), ?_⟩
  intro previous rest _ hrest
  -- the root ends at the first point of the path, or where the text after it goes on
  have hhead := endsName_path path hrest.noName
  obtain ⟨last, hlast⟩ := hscans (some (.name root)) rest rfl hrest.noName
  rw [List.append_assoc]
  exact ⟨last, (hroot.scans previous hhead).trans hlast⟩

/-! ## Literals -/

/-- A text that is scanned as one token spells what derives from the token. -/
theorem spells_token {l : Level} {k : Token} {e : Expr} {t : List Char}
    (hphrase : Phrase (.expr l) [k] e) (hbegins : ∃ c cs, t = c :: cs ∧ c ≠ '=')
    (hscan : ∀ (previous : Option Token) (rest : List Char), previous ≠ some .dot → Ends rest →
      Scans previous (t ++ rest) [k] (some k) rest) : Spells (.expr l) t e :=
  ⟨hbegins, [k], hphrase, fun previous rest hprevious hrest =>
    ⟨some k, hscan previous rest hprevious hrest⟩⟩

/-- A minus sign in front of a text that spells a number. -/
theorem spells_minus {e negated : Expr} {t : List Char} (h : Spells (.expr .signed) t e)
    (hphrase : ∀ w, Phrase (.expr .signed) w e → Phrase (.expr .signed) (.minus :: w) negated) :
    Spells (.expr .signed) ('-' :: t) negated := by
  obtain ⟨w, hw, hscans⟩ := h.scans
  refine ⟨⟨'-', t, rfl, by decide⟩, .minus :: w, hphrase w hw, ?_⟩
  intro previous rest _ hrest
  obtain ⟨last, hlast⟩ := hscans (some .minus) rest nofun hrest
  exact ⟨last, (Scans.mark previous rfl (by decide) (t ++ rest)).trans hlast⟩

theorem spells_word {c : Char} {cs : List Char} {v : Value}
    (hstart : Text.startsName c = true) (hcont : cs.all Text.continuesName = true)
    (h : Literal (Lexeme.wordToken (c :: cs)) v) :
    Spells (.expr .operand) (c :: cs) (.literal v) :=
  spells_token (.literal h) ⟨c, cs, rfl, (visible_of_startsName hstart).2.2.2⟩
    fun previous _ _ hrest => Scans.word previous hstart hcont hrest.noName

theorem spells_natural {n : Nat} (hn : (n : Int) < wordLimit) :
    Spells (.expr .operand) (Nat.toDigits 10 n) (.literal (.int (Int64.ofNat n))) := by
  refine spells_token (.literal (.integer n)) ?_ fun _ _ hprevious hrest =>
    Scans.integer hn hprevious hrest
  cases hdigits : Nat.toDigits 10 n with
  | nil => exact absurd hdigits Nat.toDigits_ne_nil
  | cons c cs =>
    have hc : c ∈ Nat.toDigits 10 n := by
      rw [hdigits]
      exact List.mem_cons_self
    exact ⟨c, cs, rfl, (visible_of_isDigit (Scans.isDigit_toDigits n c hc)).2.2.2⟩

theorem spells_int {n : Int64} (h : n ≠ Int64.minValue) :
    Spells (.expr (Expr.literal (.int n)).level) (toString n.toInt).toList (.literal (.int n)) := by
  have hlow := n.le_toInt
  have hhigh := n.toInt_lt
  have hmin : n.toInt ≠ -2 ^ 63 := fun heq => h (Int64.toInt_inj.1 (heq.trans rfl))
  rw [Int.toString_eq_repr]
  by_cases hneg : n.toInt < 0
  · -- the minus sign is a token of its own and becomes part of the literal again
    obtain ⟨k, hk⟩ : ∃ k : Nat, n.toInt = Int.negSucc k := Int.eq_negSucc_of_lt_zero hneg
    -- only the least integer has an absolute value that is no integer of scripts
    have hfits : ((k + 1 : Nat) : Int) < wordLimit := by
      rw [wordLimit]
      omega
    have hlevel : (Expr.literal (.int n)).level = .signed := by
      simp [Expr.level, Value.isSigned, hneg]
    have hvalue : -Int64.ofNat (k + 1) = n := by
      have hneg : -((k + 1 : Nat) : Int) = n.toInt := hk.symm
      rw [← Int64.ofInt_eq_ofNat, ← Int64.ofInt_neg, hneg, Int64.ofInt_toInt]
    have htext : (Int.repr n.toInt).toList = '-' :: Nat.toDigits 10 (k + 1) := by
      rw [hk]
      simp [Int.repr]
    rw [hlevel, htext, ← hvalue]
    exact spells_minus ((spells_natural hfits).loosen (by decide)) fun w hw => .minusInt hw
  · obtain ⟨k, hk⟩ : ∃ k : Nat, n.toInt = k := Int.eq_ofNat_of_zero_le (by omega)
    have hfits : (k : Int) < wordLimit := by
      rw [wordLimit]
      omega
    have hlevel : (Expr.literal (.int n)).level = .operand := by
      simp [Expr.level, Value.isSigned, hneg]
    have hvalue : Int64.ofNat k = n := by
      rw [← Int64.ofInt_eq_ofNat, ← hk, Int64.ofInt_toInt]
    have htext : (Int.repr n.toInt).toList = Nat.toDigits 10 k := by
      rw [hk]
      exact Nat.toList_repr
    rw [hlevel, htext, ← hvalue]
    exact spells_natural hfits

theorem spells_float {x : Float} (hfinite : x.isFinite = true)
    (hplain : 'e' ∉ (Decimal.shown x).toList) :
    Spells (.expr (Expr.literal (.float x)).level) (Decimal.shown x).toList
      (.literal (.float x)) := by
  obtain ⟨whole, fraction, htext, hwhole, hfraction, hdigits, hvalue⟩ :=
    Decimal.shown_plain hfinite hplain
  have hunsigned : Spells (.expr .operand) (whole ++ '.' :: fraction)
      (.literal (.float (Decimal.unsigned x))) := by
    refine spells_token (.literal (.number _)) ?_ fun _ _ hprevious hrest =>
      Scans.decimal hwhole hfraction hdigits hprevious hrest.noName hvalue
    cases whole with
    | nil => exact absurd rfl hwhole
    | cons c cs =>
      exact ⟨c, _, rfl, (visible_of_isDigit (hdigits c List.mem_cons_self)).2.2.2⟩
  -- a finite number is its magnitude with or without a minus sign, also if it is a zero
  have hsigned := Decimal.signed_magnitude hfinite
  rw [htext]
  by_cases hneg : Decimal.isNegative x = true
  · have hlevel : (Expr.literal (.float x)).level = .signed := by
      simp [Expr.level, Value.isSigned, hneg]
    rw [if_pos hneg] at hsigned
    rw [hlevel, if_pos hneg]
    have hminus := spells_minus (hunsigned.loosen (l := .signed) (by decide))
      fun w hw => .minusFloat hw
    rwa [hsigned] at hminus
  · have hlevel : (Expr.literal (.float x)).level = .operand := by
      simp [Expr.level, Value.isSigned, hneg]
    rw [if_neg hneg] at hsigned
    rw [hlevel, if_neg hneg, List.nil_append, ← hsigned]
    exact hsigned.symm ▸ hunsigned

theorem spells_string {s : String} (h : ∀ c ∈ s.toList, Text.EscapedPlainly c) :
    Spells (.expr .operand) (Text.quoted s).toList (.literal (.string s)) := by
  refine spells_token (.literal (.string s)) ?_ fun _ _ _ _ => Scans.quoted h
  rw [Text.quoted, String.toList_ofList]
  exact ⟨'"', s.toList.flatMap Text.escaped ++ ['"'], rfl, by decide⟩

/-- The text of a canonical value spells its literal. -/
theorem spells_literal {v : Value} (h : v.Canonical) :
    Spells (.expr (Expr.literal v).level) v.text.toList (.literal v) := by
  cases v with
  | null => exact spells_word (startsName_of_isAlpha rfl) (continuesName_of_letters rfl) .null
  | bool b =>
    cases b with
    | true => exact spells_word (startsName_of_isAlpha rfl) (continuesName_of_letters rfl) .true
    | false => exact spells_word (startsName_of_isAlpha rfl) (continuesName_of_letters rfl) .false
  | int n => exact spells_int h
  | float x => exact spells_float h.1 h.2
  | string s => exact spells_string h
  | list items => cases h
  | map fields => cases h

/-! ## Groups -/

/-- The sign that ends a group. -/
def Group.sign : Group → Char
  | .arguments => ')'
  | .items => ']'
  | .entries => '}'

theorem Group.scans_sign (g : Group) {previous : Option Token} (rest : List Char) :
    Scans previous (g.sign :: rest) [g.close] (some g.close) rest := by
  cases g with
  | arguments => exact Scans.mark previous rfl (by decide) rest
  | items => exact Scans.mark previous rfl (by decide) rest
  | entries => exact Scans.mark previous rfl (by decide) rest

theorem Group.ends_sign (g : Group) (rest : List Char) : Ends (g.sign :: rest) := by
  cases g with
  | arguments => exact ends_cons (by decide) (by decide) rest
  | items => exact ends_cons (by decide) (by decide) rest
  | entries => exact ends_cons (by decide) (by decide) rest

/-- Elements with commas between them, and the sign that ends the group. -/
theorem spells_group (g : Group) {ts : List (List Char)} {xs : List g.Element}
    (h : List.Forall₂ (Spells (.element g)) ts xs) :
    ∃ w, Phrase (.group g) w xs ∧ ∀ previous rest, previous ≠ some Token.dot →
      Scans previous ([',', ' '].intercalate ts ++ g.sign :: rest) w (some g.close) rest := by
  induction h with
  | nil => exact ⟨_, .closed g 0, fun previous rest _ => g.scans_sign rest⟩
  | @cons t x ts xs hx htail ih =>
    obtain ⟨v, hv, hscans⟩ := hx.scans
    cases htail with
    | nil =>
      refine ⟨_, .last g 0 0 hv, ?_⟩
      intro previous rest hprevious
      obtain ⟨last, hlast⟩ := hscans previous (g.sign :: rest) hprevious (g.ends_sign rest)
      have hscan := hlast.trans (g.scans_sign rest)
      simpa [lineEnds] using hscan
    | @cons u y us ys hy hys =>
      obtain ⟨w, hw, hmore⟩ := ih
      refine ⟨_, .next g 0 0 hv hw, ?_⟩
      intro previous rest hprevious
      -- the comma ends the element, and the blank after it is skipped
      have hends : Ends (',' :: ' ' :: ([',', ' '].intercalate (u :: us) ++ g.sign :: rest)) :=
        ends_cons (by decide) (by decide) _
      obtain ⟨last, hlast⟩ := hscans previous _ hprevious hends
      have hcomma := Scans.mark last (show Lexeme.charToken? ',' = some .comma from rfl) (by decide)
        (' ' :: ([',', ' '].intercalate (u :: us) ++ g.sign :: rest))
      have hscan := (hlast.trans hcomma).trans (hmore (some .comma) rest nofun).blank
      rw [List.intercalate_cons_cons]
      simpa [lineEnds] using hscan

/-- Elements are written with commas between them. -/
theorem toList_commaSeparated (parts : List String) :
    (commaSeparated parts).toList = [',', ' '].intercalate (parts.map String.toList) :=
  String.toList_intercalate

/-- A group with the bracket that opens it. -/
theorem scans_bracket {g : Group} {c : Char} {opening : Token} {parts : List String}
    {xs : List g.Element} (hopen : Lexeme.charToken? c = some opening) (hdot : opening ≠ .dot)
    (hc : c ∉ ['=', '!', '<', '>', '/', '.'])
    (h : List.Forall₂ (Spells (.element g)) (parts.map String.toList) xs) :
    ∃ w, Phrase (.group g) w xs ∧ ∀ previous rest,
      Scans previous (c :: ((commaSeparated parts).toList ++ g.sign :: rest)) (opening :: w)
        (some g.close) rest := by
  obtain ⟨w, hw, hscans⟩ := spells_group g h
  refine ⟨w, hw, ?_⟩
  intro previous rest
  rw [toList_commaSeparated]
  have hopening : some opening ≠ some Token.dot := fun heq => hdot (Option.some.inj heq)
  exact (Scans.mark previous hopen hc _).trans (hscans (some opening) rest hopening)

/-! ## Expressions -/

theorem spells_list {parts : List String} {items : List Expr}
    (h : List.Forall₂ (Spells (.expr .disjunction)) (parts.map String.toList) items) :
    Spells (.expr .operand) (inBrackets parts).toList (.list items) := by
  have hitems : List.Forall₂ (Spells (.element .items)) (parts.map String.toList) items :=
    h.imp fun _ _ hitem => hitem.imp fun _ hw => .item hw
  obtain ⟨w, hw, hscans⟩ := scans_bracket (c := '[') rfl nofun (by decide) hitems
  have htext : (inBrackets parts).toList = '[' :: ((commaSeparated parts).toList ++ [']']) := by
    simp [inBrackets]
  rw [htext]
  refine ⟨⟨'[', _, rfl, by decide⟩, _, .list hw, fun previous rest _ _ => ⟨some .rightBracket, ?_⟩⟩
  rw [List.cons_append, List.append_assoc]
  exact hscans previous rest

theorem spells_map {parts : List String} {entries : List (String × Expr)}
    (h : List.Forall₂ (Spells (.element .entries)) (parts.map String.toList) entries) :
    Spells (.expr .operand) (inBraces parts).toList (.map entries) := by
  obtain ⟨w, hw, hscans⟩ := scans_bracket (c := '\x7b') rfl nofun (by decide) h
  have htext : (inBraces parts).toList =
      '\x7b' :: ((commaSeparated parts).toList ++ ['\x7d']) := by
    simp [inBraces]
  rw [htext]
  refine ⟨⟨'\x7b', _, rfl, by decide⟩, _, .map hw, fun previous rest _ _ => ⟨some .rightBrace, ?_⟩⟩
  rw [List.cons_append, List.append_assoc]
  exact hscans previous rest

theorem toList_applied (name : String) (parts : List String) : (applied name parts).toList =
    name.toList ++ '(' :: ((commaSeparated parts).toList ++ [')']) := by
  simp [applied]

/-- A name with its arguments is read after any token but a point, and whatever comes after it. -/
theorem scans_applied {name : String} (hname : IsName name) {parts : List String}
    {arguments : List (Arg Expr)}
    (h : List.Forall₂ (Spells (.element .arguments)) (parts.map String.toList) arguments) :
    ∃ w, Phrase (.group .arguments) w arguments ∧ ∀ previous rest,
      Scans previous ((applied name parts).toList ++ rest) (.name name :: .leftParen :: w)
        (some .rightParen) rest := by
  obtain ⟨w, hw, hscans⟩ := scans_bracket (c := '(') rfl nofun (by decide) h
  refine ⟨w, hw, ?_⟩
  intro previous rest
  have hparen : EndsName ('(' :: ((commaSeparated parts).toList ++ ')' :: rest)) :=
    endsName_cons (by decide) _
  rw [toList_applied, List.append_assoc, List.cons_append, List.append_assoc]
  exact (hname.scans previous hparen).trans (hscans _ rest)

theorem begins_applied {name : String} (hname : IsName name) (parts : List String) :
    ∃ c cs, (applied name parts).toList = c :: cs ∧ c ≠ '=' := by
  rw [toList_applied]
  exact begins_append hname.begins_unequal _

theorem spells_call {name : String} (hname : IsName name) {parts : List String}
    {arguments : List (Arg Expr)}
    (h : List.Forall₂ (Spells (.element .arguments)) (parts.map String.toList) arguments) :
    Spells (.expr .operand) (applied name parts).toList (.call name arguments) := by
  obtain ⟨w, hw, hscans⟩ := scans_applied hname h
  exact ⟨begins_applied hname parts, _, .call name hw,
    fun previous rest _ _ => ⟨_, hscans previous rest⟩⟩

theorem spells_function {name : String} (hname : IsName name) :
    Spells (.expr .operand) ("@" ++ name).toList (.function name []) := by
  have htext : ("@" ++ name).toList = '@' :: name.toList := by simp
  rw [htext]
  refine ⟨⟨'@', _, rfl, by decide⟩, _, .function 0 name,
    fun previous rest _ hrest => ⟨some (.name name), ?_⟩⟩
  exact (Scans.mark previous rfl (by decide) _).trans (hname.scans (some .at) hrest.noName)

theorem spells_functionCall {name : String} (hname : IsName name) {parts : List String}
    {arguments : List (Arg Expr)}
    (h : List.Forall₂ (Spells (.element .arguments)) (parts.map String.toList) arguments) :
    Spells (.expr .operand) ("@" ++ applied name parts).toList (.function name arguments) := by
  obtain ⟨w, hw, hscans⟩ := scans_applied hname h
  have htext : ("@" ++ applied name parts).toList = '@' :: (applied name parts).toList := by simp
  rw [htext]
  refine ⟨⟨'@', _, rfl, by decide⟩, _, .functionCall 0 name hw,
    fun previous rest _ _ => ⟨some .rightParen, ?_⟩⟩
  exact (Scans.mark previous rfl (by decide) _).trans (hscans (some .at) rest)

theorem spells_not {e : Expr} {s : String} (h : Spells (.expr .signed) s.toList e) :
    Spells (.expr .signed) (UnaryOp.mark .not ++ s).toList (.unary .not e) := by
  obtain ⟨w, hw, hscans⟩ := h.scans
  have htext : (UnaryOp.mark .not ++ s).toList = ['n', 'o', 't'] ++ ' ' :: s.toList := by
    simp [UnaryOp.mark]
  rw [htext]
  refine ⟨⟨'n', _, rfl, by decide⟩, _, .not hw, ?_⟩
  intro previous rest _ hrest
  obtain ⟨last, hlast⟩ := hscans (some .notWord) rest nofun hrest
  -- the blank ends the word, which would be a longer name without it
  have hword : Scans previous (['n', 'o', 't'] ++ ' ' :: (s.toList ++ rest)) [.notWord]
      (some .notWord) (' ' :: (s.toList ++ rest)) :=
    Scans.word previous (startsName_of_isAlpha rfl) (continuesName_of_letters rfl)
      (endsName_cons (by decide) _)
  exact ⟨last, hword.trans hlast.blank⟩

theorem spells_neg {e : Expr} {s : String} (h : Spells (.expr .signed) s.toList e)
    (hnumber : e.isNumber = false) :
    Spells (.expr .signed) (UnaryOp.mark .neg ++ s).toList (.unary .neg e) := by
  have htext : (UnaryOp.mark .neg ++ s).toList = '-' :: s.toList := by simp [UnaryOp.mark]
  rw [htext]
  -- a number after the sign would be read as a negative literal
  refine spells_minus h fun w hw => .minus hw ?_ ?_
  · rintro n rfl
    cases hnumber
  · rintro x rfl
    cases hnumber

theorem spells_binary {op : BinaryOp} {left right : Expr} {l r : Level} {s t : String}
    (hleft : Spells (.expr l) s.toList left) (hl : op.leftLevel ≤ l)
    (hright : Spells (.expr r) t.toList right) (hr : op.level.tighter ≤ r) :
    Spells (.expr op.level) (s ++ " " ++ op.symbol ++ " " ++ t).toList
      (.binary op left right) := by
  obtain ⟨v, hv, hscansLeft⟩ := hleft.scans
  obtain ⟨w, hw, hscansRight⟩ := hright.scans
  have htext : (s ++ " " ++ op.symbol ++ " " ++ t).toList =
      s.toList ++ ' ' :: (op.symbol.toList ++ ' ' :: t.toList) := by simp
  rw [htext]
  refine ⟨begins_append hleft.begins _, _, .binary op hv hl hw hr, ?_⟩
  intro previous rest hprevious hrest
  -- the blanks around the operator end the left operand and the operator
  have hends : Ends (' ' :: (op.symbol.toList ++ ' ' :: (t.toList ++ rest))) :=
    ends_cons (by decide) (by decide) _
  obtain ⟨last, hlast⟩ := hscansLeft previous _ hprevious hends
  have hdot : some op.token ≠ some Token.dot := by cases op <;> nofun
  obtain ⟨last', hlast'⟩ := hscansRight (some op.token) rest hdot hrest
  have hop := (Scans.operator last op (t.toList ++ rest)).trans hlast'.blank
  refine ⟨last', ?_⟩
  have hscan := hlast.trans hop.blank
  simpa using hscan

theorem spells_method {target : Expr} {l : Level} {s name : String}
    (htarget : Spells (.expr l) s.toList target) (hl : .postfixed ≤ l) (hname : IsName name)
    {parts : List String} {items : List Expr}
    (h : List.Forall₂ (Spells (.expr .disjunction)) (parts.map String.toList) items) :
    Spells (.expr .postfixed) (s ++ "." ++ applied name parts).toList
      (.method target name items) := by
  have harguments : List.Forall₂ (Spells (.element .arguments)) (parts.map String.toList)
      (items.map fun e => ⟨none, e⟩) :=
    List.forall₂_map_right_iff.2 (h.imp fun _ _ hitem => hitem.imp fun _ hw => .positional hw)
  -- methods have no keywords, and the grammar drops them from what it derives
  have hvalues : (items.map fun e => (⟨none, e⟩ : Arg Expr)).map Arg.value = items := by
    simp [Function.comp_def]
  obtain ⟨v, hv, hscansTarget⟩ := htarget.scans
  obtain ⟨w, hw, hscans⟩ := scans_bracket (c := '(') rfl nofun (by decide) harguments
  have htext : (s ++ "." ++ applied name parts).toList =
      s.toList ++ '.' :: (name.toList ++ '(' :: ((commaSeparated parts).toList ++ [')'])) := by
    simp [toList_applied]
  have hphrase := Phrase.method (hv.loosen hl) (.name name) hw
  rw [hvalues] at hphrase
  rw [htext]
  refine ⟨begins_append htarget.begins _, _, hphrase, ?_⟩
  intro previous rest hprevious hrest
  have hparen : EndsName ('(' :: ((commaSeparated parts).toList ++ ')' :: rest)) :=
    endsName_cons (by decide) _
  -- a name follows the point, so the point is no part of a number that ends the target
  obtain ⟨last, hlast⟩ := hscansTarget previous _ hprevious (hname.ends_point _)
  have hscan := (hlast.trans (hname.scans_point last hparen)).trans (hscans _ rest)
  refine ⟨some Group.arguments.close, ?_⟩
  simpa using hscan

theorem pairToken?_eq_none {c d : Char} (h : d ≠ '=') : Lexeme.pairToken? c d = none := by
  unfold Lexeme.pairToken?
  split
  · exact absurd rfl h
  · exact absurd rfl h
  · exact absurd rfl h
  · exact absurd rfl h
  · rfl

theorem spells_keyword {keyword : Option String} (hkeyword : ∀ k ∈ keyword, IsName k) {s : String}
    {e : Expr} (h : Spells (.expr .disjunction) s.toList e) :
    Spells (.element .arguments) (argumentText keyword s).toList ⟨keyword, e⟩ := by
  cases keyword with
  | none => exact h.imp fun _ hw => .positional hw
  | some k =>
    have hname := hkeyword k rfl
    obtain ⟨w, hw, hscans⟩ := h.scans
    obtain ⟨d, ds, hd, hequal⟩ := h.begins
    have htext : (argumentText (some k) s).toList = k.toList ++ '=' :: s.toList := by
      simp [argumentText]
    rw [htext]
    refine ⟨begins_append hname.begins_unequal _, _, .keyword k hw, ?_⟩
    intro previous rest _ hrest
    obtain ⟨last, hlast⟩ := hscans (some .assign) rest nofun hrest
    -- no value begins with an equals sign, so the sign before it stands alone
    have hassign : Scans (some (.name k)) ('=' :: (s.toList ++ rest)) [.assign] (some .assign)
        (s.toList ++ rest) := by
      refine Scans.sign rfl ?_ nofun nofun
      intro d' hd'
      rw [hd] at hd'
      cases hd'
      exact pairToken?_eq_none hequal
    have hend : EndsName ('=' :: (s.toList ++ rest)) := endsName_cons (by decide) _
    have hscan := ((hname.scans previous hend).trans hassign).trans hlast
    refine ⟨last, ?_⟩
    simpa using hscan

theorem spells_entry {name s : String} (hname : IsName name) {e : Expr}
    (h : Spells (.expr .disjunction) s.toList e) :
    Spells (.element .entries) (name ++ ": " ++ s).toList (name, e) := by
  obtain ⟨w, hw, hscans⟩ := h.scans
  have htext : (name ++ ": " ++ s).toList = name.toList ++ ':' :: ' ' :: s.toList := by simp
  rw [htext]
  refine ⟨begins_append hname.begins_unequal _, _, .entry (.name name) (Or.inl rfl) hw, ?_⟩
  intro previous rest _ hrest
  obtain ⟨last, hlast⟩ := hscans (some .colon) rest nofun hrest
  have hend : EndsName (':' :: ' ' :: (s.toList ++ rest)) := endsName_cons (by decide) _
  have hcolon : Scans (some (.name name)) (':' :: ' ' :: (s.toList ++ rest)) [.colon] (some .colon)
      (' ' :: (s.toList ++ rest)) := Scans.mark _ rfl (by decide) _
  have hscan := ((hname.scans previous hend).trans hcolon).trans hlast.blank
  refine ⟨last, ?_⟩
  simpa using hscan

/-! ## All expressions -/

namespace Expr

mutual

/-- The text of a canonical expression spells it. -/
theorem Canonical.spells : ∀ {e : Expr}, e.Canonical → Spells (.expr e.level) e.text.toList e
  | .literal _, h => spells_literal h
  | .list _, h => spells_list (Canonical.spells_items h)
  | .map _, h => spells_map (Canonical.spells_entries h)
  | .property _ _, ⟨hroot, hpath⟩ => spells_property hroot hpath
  | .binary _ _ _, ⟨hleft, hright, hl, hr⟩ =>
    spells_binary (Canonical.spells hleft) hl (Canonical.spells hright) hr
  | .unary .not _, ⟨he, hl⟩ => spells_not ((Canonical.spells he).loosen hl)
  | .unary .neg _, ⟨he, hl, hnumber⟩ => spells_neg ((Canonical.spells he).loosen hl) hnumber
  | .method _ _ _, ⟨htarget, hl, hname, hitems⟩ =>
    spells_method (Canonical.spells htarget) hl hname (Canonical.spells_items hitems)
  | .call _ _, ⟨hname, harguments⟩ => spells_call hname (Canonical.spells_arguments harguments)
  | .function _ [], ⟨hname, _⟩ => spells_function hname
  | .function _ (_ :: _), ⟨hname, harguments⟩ =>
    spells_functionCall hname (Canonical.spells_arguments harguments)

theorem Canonical.spells_items : ∀ {items : List Expr}, CanonicalItems items →
    List.Forall₂ (Spells (.expr .disjunction)) ((itemTexts items).map String.toList) items
  | [], _ => .nil
  | _ :: _, ⟨he, hrest⟩ =>
    .cons ((Canonical.spells he).loosen (Nat.zero_le _)) (Canonical.spells_items hrest)

theorem Canonical.spells_entries : ∀ {entries : List (String × Expr)}, CanonicalEntries entries →
    List.Forall₂ (Spells (.element .entries)) ((entryTexts entries).map String.toList) entries
  | [], _ => .nil
  | (_, _) :: _, ⟨hname, he, hrest⟩ =>
    .cons (spells_entry hname ((Canonical.spells he).loosen (Nat.zero_le _)))
      (Canonical.spells_entries hrest)

theorem Canonical.spells_arguments : ∀ {arguments : List (Arg Expr)},
    CanonicalArguments arguments → List.Forall₂ (Spells (.element .arguments))
      ((argumentTexts arguments).map String.toList) arguments
  | [], _ => .nil
  | ⟨_, _⟩ :: _, ⟨hkeyword, he, hrest⟩ =>
    .cons (spells_keyword hkeyword ((Canonical.spells he).loosen (Nat.zero_le _)))
      (Canonical.spells_arguments hrest)

end

end Expr

end DawScript
