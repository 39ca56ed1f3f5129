import DawScript.Proofs.IntegerRounding
import DawScript.Proofs.Reductions

/-!
# The order of integers

Operators and folds order integers as the floating-point numbers nearest to them. So the order is
that of the integers rounded to fifty-three binary digits: it is exact for integers that are rounded
to different ones, and neighbours that are not are neither below nor above each other, although they
are not equal (`integers_compare_rounded`).
-/

set_option autoImplicit false

namespace DawScript

open Decimal

/-! ## Comparing words -/

/-- The integer that a word counts as where it is ordered. -/
def rounded (n : Int64) : Int := roundedInt n.toInt

theorem rounded_mono {a b : Int64} (h : a.toInt ≤ b.toInt) : rounded a ≤ rounded b :=
  roundedInt_mono h

/-- Words up to `2 ^ 53` count as they are. -/
theorem rounded_of_le {n : Int64} (hlow : -2 ^ 53 ≤ n.toInt) (hhigh : n.toInt ≤ 2 ^ 53) :
    rounded n = n.toInt :=
  roundedInt_of_le hlow hhigh

theorem stands_rounded (n : Int64) :
    Stands 13 (Float.ofInt n.toInt).toModel.unpack (rounded n) := by
  have hlow := n.le_toInt
  have hhigh := n.toInt_lt
  exact stands_ofInt (by omega) (by omega)

/-- Two floating-point numbers that compare in an order are compared so. -/
theorem compareFloats_eq {x y : Float} {o : Ordering}
    (h : x.toModel.unpack.compare y.toModel.unpack = some o)
    (h' : y.toModel.unpack.compare x.toModel.unpack = some o.swap) :
    compareFloats x y = some o := by
  have hlt (z w : Float) : z < w ↔ z.toModel.unpack.compare w.toModel.unpack = some .lt :=
    decide_eq_true_iff.trans beq_iff_eq
  have heq : (x == y) = true ↔ x.toModel.unpack.compare y.toModel.unpack = some .eq := by
    change (x.toModel.unpack.compare y.toModel.unpack == some .eq) = true ↔ _
    exact beq_iff_eq
  unfold compareFloats
  simp only [hlt, heq, h, h']
  cases o <;> rfl

/-- Two words compare as the rounded integers. -/
theorem compare?_words (a b : Int64) :
    Value.compare? (.int a) (.int b) = some (cmp (rounded a) (rounded b)) := by
  have hcast (m n : Int) : cmp (m : ℚ) n = cmp m n := Int.cast_strictMono.cmp_map_eq m n
  have hab := (stands_rounded a).compare_eq (stands_rounded b)
  have hba := (stands_rounded b).compare_eq (stands_rounded a)
  rw [hcast] at hab hba
  rw [← cmp_swap] at hba
  exact compareFloats_eq hab hba

/-! ## The operators on words -/

/-- The operators order two words as the integers that they count as. -/
structure OrderedBy (f : Int64 → Int) (a b : Int64) : Prop where
  lt : BinaryOp.lt.apply (.int a) (.int b) = .ok (.bool (decide (f a < f b)))
  gt : BinaryOp.gt.apply (.int a) (.int b) = .ok (.bool (decide (f b < f a)))
  le : BinaryOp.le.apply (.int a) (.int b) = .ok (.bool (decide (f a ≤ f b)))
  ge : BinaryOp.ge.apply (.int a) (.int b) = .ok (.bool (decide (f b ≤ f a)))

theorem orderedBy_rounded (a b : Int64) : OrderedBy rounded a b := by
  have hordered (op : BinaryOp) {holds : Ordering → Bool} {p : Prop} [Decidable p]
      (h : holds (cmp (rounded a) (rounded b)) = true ↔ p) :
      Value.ordered op holds (.int a) (.int b) = .ok (.bool (decide p)) := by
    have hholds : holds (cmp (rounded a) (rounded b)) = decide p :=
      Bool.eq_iff_iff.2 (h.trans decide_eq_true_iff.symm)
    rw [Value.ordered, compare?_words, ← hholds]
  constructor
  · exact hordered .lt (by rw [beq_iff_eq, cmp_eq_lt_iff])
  · exact hordered .gt (by rw [beq_iff_eq, cmp_eq_gt_iff])
  · exact hordered .le (by rw [bne_iff_ne, Ne, cmp_eq_gt_iff, Int.not_lt])
  · exact hordered .ge (by rw [bne_iff_ne, Ne, cmp_eq_lt_iff, Int.not_lt])

/-- Words are rounded to different integers, unless they are the same. -/
def RoundsApart (ns : List Int64) : Prop :=
  ∀ a ∈ ns, ∀ b ∈ ns, rounded a = rounded b → a = b

theorem roundsApart_pair_iff {a b : Int64} :
    RoundsApart [a, b] ↔ (rounded a = rounded b → a = b) := by
  constructor
  · exact fun h => h a (by simp) b (by simp)
  · intro h m hm n hn hmn
    simp only [List.mem_cons, List.not_mem_nil, or_false] at hm hn
    rcases hm with rfl | rfl
    · rcases hn with rfl | rfl
      · rfl
      · exact h hmn
    · rcases hn with rfl | rfl
      · exact (h hmn.symm).symm
      · rfl

/-- Words up to `2 ^ 53` are rounded to different integers. -/
theorem roundsApart_of_le {ns : List Int64}
    (h : ∀ n ∈ ns, -2 ^ 53 ≤ n.toInt ∧ n.toInt ≤ 2 ^ 53) : RoundsApart ns := by
  intro a ha b hb heq
  rw [rounded_of_le (h a ha).1 (h a ha).2, rounded_of_le (h b hb).1 (h b hb).2] at heq
  exact Int64.toInt_inj.1 heq

theorem RoundsApart.rounded_lt_iff {ns : List Int64} (h : RoundsApart ns) {a b : Int64}
    (ha : a ∈ ns) (hb : b ∈ ns) : rounded a < rounded b ↔ a.toInt < b.toInt := by
  constructor
  · intro hlt
    by_contra hle
    exact absurd (rounded_mono (Int.not_lt.1 hle)) (Int.not_le.2 hlt)
  · intro hlt
    refine lt_of_le_of_ne (rounded_mono hlt.le) fun heq => ?_
    rw [h a ha b hb heq] at hlt
    exact lt_irrefl _ hlt

/-- The operators order words that are rounded to different integers exactly. -/
theorem RoundsApart.orderedBy {a b : Int64} (h : RoundsApart [a, b]) :
    OrderedBy Int64.toInt a b := by
  have hab := h.rounded_lt_iff (a := a) (b := b) (by simp) (by simp)
  have hba := h.rounded_lt_iff (a := b) (b := a) (by simp) (by simp)
  obtain ⟨hlt, hgt, hle, hge⟩ := orderedBy_rounded a b
  simp only [← Int.not_lt, hab, hba] at hlt hgt hle hge
  constructor
  · exact hlt
  · exact hgt
  · simpa only [← Int.not_lt] using hle
  · simpa only [← Int.not_lt] using hge

theorem eq_words (a b : Int64) :
    BinaryOp.eq.apply (.int a) (.int b) = .ok (.bool (decide (a = b))) := rfl

/-- An operator holds for two words. -/
def Holds (op : BinaryOp) (a b : Int64) : Prop :=
  op.apply (.int a) (.int b) = .ok (.bool true)

theorem OrderedBy.lt_iff {f : Int64 → Int} {a b : Int64} (h : OrderedBy f a b) :
    Holds .lt a b ↔ f a < f b := by
  simp [Holds, h.lt]

theorem OrderedBy.gt_iff {f : Int64 → Int} {a b : Int64} (h : OrderedBy f a b) :
    Holds .gt a b ↔ f b < f a := by
  simp [Holds, h.gt]

theorem holds_eq_iff {a b : Int64} : Holds .eq a b ↔ a = b := by
  simp [Holds, eq_words]

theorem forall_mem_orders {P : BinaryOp → Prop} :
    (∀ op ∈ [BinaryOp.lt, .eq, .gt], P op) ↔ P .lt ∧ P .eq ∧ P .gt := by
  simp

/-- Of two words that are rounded to different integers, one is below the other, or they are
equal. -/
theorem RoundsApart.existsUnique {a b : Int64} (h : RoundsApart [a, b]) :
    ∃! op, op ∈ [BinaryOp.lt, .eq, .gt] ∧ Holds op a b := by
  have hlt := h.orderedBy.lt_iff
  have hgt := h.orderedBy.gt_iff
  have heq : Holds .eq a b ↔ a.toInt = b.toInt := holds_eq_iff.trans Int64.toInt_inj.symm
  have hunique {op : BinaryOp} (hop : op ∈ [BinaryOp.lt, .eq, .gt] ∧ Holds op a b)
      (hothers : ∀ other ∈ [BinaryOp.lt, .eq, .gt], Holds other a b → other = op) :
      ∃! op, op ∈ [BinaryOp.lt, .eq, .gt] ∧ Holds op a b :=
    ⟨op, hop, fun other hother => hothers other hother.1 hother.2⟩
  rcases lt_trichotomy a.toInt b.toInt with hless | hsame | hmore
  · exact hunique ⟨by simp, hlt.2 hless⟩ (forall_mem_orders.2 ⟨fun _ => rfl,
      fun hother => absurd (heq.1 hother) hless.ne,
      fun hother => absurd (hgt.1 hother) hless.asymm⟩)
  · exact hunique ⟨by simp, heq.2 hsame⟩ (forall_mem_orders.2 ⟨
      fun hother => absurd hsame (hlt.1 hother).ne, fun _ => rfl,
      fun hother => absurd hsame (hgt.1 hother).ne'⟩)
  · exact hunique ⟨by simp, hgt.2 hmore⟩ (forall_mem_orders.2 ⟨
      fun hother => absurd (hlt.1 hother) hmore.asymm,
      fun hother => absurd (heq.1 hother) hmore.ne', fun _ => rfl⟩)

/-- Different words that are rounded to one integer are not ordered. -/
theorem not_holds_of_rounded_eq {a b : Int64} (h : rounded a = rounded b) (hne : a ≠ b) :
    ∀ op ∈ [BinaryOp.lt, .eq, .gt], ¬Holds op a b := by
  have hordered := orderedBy_rounded a b
  refine forall_mem_orders.2 ⟨?_, ?_, ?_⟩
  · rw [hordered.lt_iff]
    exact h.not_lt
  · rw [holds_eq_iff]
    exact hne
  · rw [hordered.gt_iff]
    exact h.not_gt

/-! ## The greatest and the least word -/

/-- The first of the words in a list with the best score. -/
def FirstBest (score : Int64 → Int) (best : Int64) (ns : List Int64) : Prop :=
  ∃ before after, ns = before ++ best :: after ∧ (∀ n ∈ before, score n < score best) ∧
    ∀ n ∈ after, score n ≤ score best

namespace FirstBest

variable {score : Int64 → Int} {best n : Int64} {ns : List Int64}

theorem mem (h : FirstBest score best ns) : best ∈ ns := by
  obtain ⟨before, after, rfl, -, -⟩ := h
  simp

theorem score_le (h : FirstBest score best ns) (hn : n ∈ ns) : score n ≤ score best := by
  obtain ⟨before, after, rfl, hbefore, hafter⟩ := h
  rcases List.mem_append.1 hn with hn | hn
  · exact (hbefore n hn).le
  · rcases List.mem_cons.1 hn with rfl | hn
    · exact le_rfl
    · exact hafter n hn

/-- A better word comes before the best one of the others. -/
theorem cons_of_lt {worse : Int64} (h : FirstBest score best (n :: ns))
    (hlt : score worse < score n) : FirstBest score best (worse :: n :: ns) := by
  have hn := h.score_le List.mem_cons_self
  obtain ⟨before, after, heq, hbefore, hafter⟩ := h
  refine ⟨worse :: before, after, congrArg (worse :: ·) heq, ?_, hafter⟩
  rw [List.forall_mem_cons]
  exact ⟨hlt.trans_le hn, hbefore⟩

/-- A word that is no better than one before it does not matter. -/
theorem insert_of_le {other : Int64} (h : FirstBest score best (n :: ns))
    (hle : score other ≤ score n) : FirstBest score best (n :: other :: ns) := by
  obtain ⟨before, after, heq, hbefore, hafter⟩ := h
  cases before with
  | nil =>
    cases heq
    exact ⟨[], other :: ns, rfl, hbefore, List.forall_mem_cons.2 ⟨hle, hafter⟩⟩
  | cons head before =>
    cases heq
    refine ⟨n :: other :: before, after, rfl, ?_, hafter⟩
    rw [List.forall_mem_cons] at hbefore ⊢
    exact ⟨hbefore.1, List.forall_mem_cons.2 ⟨hle.trans_lt hbefore.1, hbefore.2⟩⟩

end FirstBest

/-- A fold that replaces a word by a better one ends with the first of the best words. -/
theorem fold_firstBest {r : Reducer} {score : Int64 → Int}
    (hstep : ∀ acc item : Int64, r.apply (.int acc) (.int item) =
      .ok (.int (if score acc < score item then item else acc)))
    (rest : List Int64) (acc : Int64) :
    ∃ best, r.fold (.int acc) (rest.map .int) = .ok (.int best) ∧
      FirstBest score best (acc :: rest) := by
  induction rest generalizing acc with
  | nil => exact ⟨acc, rfl, [], [], rfl, by simp, by simp⟩
  | cons item rest ih =>
    have hfold : r.fold (.int acc) ((item :: rest).map .int) =
        r.fold (.int (if score acc < score item then item else acc)) (rest.map .int) := by
      simp only [Reducer.fold, List.map_cons, List.foldlM_cons, hstep]
      rfl
    rw [hfold]
    split
    · next hbetter =>
      obtain ⟨best, hbest, hfirst⟩ := ih item
      exact ⟨best, hbest, hfirst.cons_of_lt hbetter⟩
    · next hworse =>
      obtain ⟨best, hbest, hfirst⟩ := ih acc
      exact ⟨best, hbest, hfirst.insert_of_le (Int.not_lt.1 hworse)⟩

theorem choose_words {op : BinaryOp} {p : Prop} [Decidable p] {acc item : Int64}
    (h : op.apply (.int item) (.int acc) = .ok (.bool (decide p))) :
    Reducer.choose op (.int acc) (.int item) = .ok (.int (if p then item else acc)) := by
  unfold Reducer.choose
  rw [h]
  change Except.ok (if (Value.bool (decide p)).isTruthy then Value.int item else Value.int acc) = _
  by_cases hp : p
  · simp [hp, Value.isTruthy]
  · simp [hp, Value.isTruthy]

theorem max_step (acc item : Int64) : Reducer.max.apply (.int acc) (.int item) =
    .ok (.int (if rounded acc < rounded item then item else acc)) :=
  choose_words (orderedBy_rounded item acc).gt

theorem min_step (acc item : Int64) : Reducer.min.apply (.int acc) (.int item) =
    .ok (.int (if -rounded acc < -rounded item then item else acc)) := by
  simp only [neg_lt_neg_iff]
  exact choose_words (orderedBy_rounded item acc).lt

/-! ## Folds in runs -/

/-- `reduce` with a fold over a collection. -/
def Expr.reduce (fold : String) (source : Expr) : Expr :=
  .call "reduce" [⟨none, .function fold []⟩, ⟨none, source⟩]

/-- What `reduce` does with a fold over the items of a collection. -/
theorem exec_reduce (env : Env) {name : String} {r : Reducer} (hr : Reducer.ofName? name = some r)
    {source : Expr} {scope : Option Binding} {s t : State} {items : List Value} {itemName : String}
    {v : Value}
    (hitems : (collection (meaning env source) scope).exec s = (.ok (items, itemName), t))
    (hfold : r.run none items = .ok v) :
    (evaluate env (.reduce name source) scope).exec s = (.ok v, t) := by
  have hcall : ReduceCall r "reduce" [⟨none, .function name []⟩, ⟨none, source⟩] source none :=
    ⟨_, _, ⟨rfl, rfl⟩, rfl, by rw [reducer, hr], rfl, rfl⟩
  rw [Expr.reduce, exec_reduceCall hcall hitems rfl, hfold]
  rfl

theorem exec_collection_literal (env : Env) (items : List Value) (scope : Option Binding)
    (s : State) :
    (collection (meaning env (.literal (.list items))) scope).exec s =
      (.ok (items, "item"), s) := by
  simp only [collection_eq, meaning, Expr.name?, evaluate, pure_bind]
  rfl

/-- `reduce` with `max` and `min` returns the first one of the words that are rounded to the
greatest and to the least integer. -/
theorem exec_reduce_words (env : Env) {source : Expr} {scope : Option Binding} {s t : State}
    {first : Int64} {rest : List Int64} {name : String}
    (hitems : (collection (meaning env source) scope).exec s =
      (.ok ((first :: rest).map .int, name), t)) :
    ∃ greatest least : Int64,
      (evaluate env (.reduce "max" source) scope).exec s = (.ok (.int greatest), t) ∧
      (evaluate env (.reduce "min" source) scope).exec s = (.ok (.int least), t) ∧
      FirstBest rounded greatest (first :: rest) ∧
      FirstBest (fun n => -rounded n) least (first :: rest) := by
  obtain ⟨greatest, hgreatest, hfirst⟩ := fold_firstBest max_step rest first
  obtain ⟨least, hleast, hfirst'⟩ := fold_firstBest min_step rest first
  exact ⟨greatest, least, exec_reduce env (r := .max) rfl hitems hgreatest,
    exec_reduce env (r := .min) rfl hitems hleast, hfirst, hfirst'⟩

/-- Among words that are rounded to different integers, the one with the greatest rounded integer is
the greatest word, and the one with the least rounded integer is the least word. -/
theorem RoundsApart.extremes {ns : List Int64} (h : RoundsApart ns) {greatest least : Int64}
    (hgreatest : FirstBest rounded greatest ns)
    (hleast : FirstBest (fun n => -rounded n) least ns) :
    ∀ n ∈ ns, least.toInt ≤ n.toInt ∧ n.toInt ≤ greatest.toInt := by
  intro n hn
  constructor
  · have hscore := hleast.score_le hn
    refine Int.not_lt.1 fun hlt => ?_
    have hrounded := (h.rounded_lt_iff hn hleast.mem).2 hlt
    omega
  · have hscore := hgreatest.score_le hn
    refine Int.not_lt.1 fun hlt => ?_
    have hrounded := (h.rounded_lt_iff hgreatest.mem hn).2 hlt
    omega

/-! ## Main results -/

/-- Operators and folds order words as integers rounded to fifty-three binary digits, and compare
them for equality exactly. So where words are rounded to different integers, exactly one of `<`,
`==` and `>` holds of two of them, as for the integers, and `reduce` with `max` or `min` returns the
greatest or the least word of a list. Different words that are rounded to one integer are neither
below, nor equal to, nor above each other, and of those that are rounded to the greatest or the
least integer `reduce` returns the first one. Words up to `2 ^ 53` are rounded to themselves. -/
theorem integers_compare_rounded (env : Env) :
    (∀ a b : Int64, OrderedBy rounded a b ∧
      BinaryOp.eq.apply (.int a) (.int b) = .ok (.bool (decide (a = b))) ∧
      (RoundsApart [a, b] → OrderedBy Int64.toInt a b ∧
        ∃! op, op ∈ [BinaryOp.lt, .eq, .gt] ∧ Holds op a b) ∧
      (¬RoundsApart [a, b] → ∀ op ∈ [BinaryOp.lt, .eq, .gt], ¬Holds op a b)) ∧
    (∀ (source : Expr) (scope : Option Binding) (s t : State) (first : Int64) (rest : List Int64)
        (name : String),
      (collection (meaning env source) scope).exec s =
          (.ok ((first :: rest).map .int, name), t) →
        ∃ greatest least : Int64,
          (evaluate env (.reduce "max" source) scope).exec s = (.ok (.int greatest), t) ∧
          (evaluate env (.reduce "min" source) scope).exec s = (.ok (.int least), t) ∧
          FirstBest rounded greatest (first :: rest) ∧
          FirstBest (fun n => -rounded n) least (first :: rest) ∧
          (RoundsApart (first :: rest) →
            ∀ n ∈ first :: rest, least.toInt ≤ n.toInt ∧ n.toInt ≤ greatest.toInt)) ∧
    ∀ ns : List Int64, (∀ n ∈ ns, -2 ^ 53 ≤ n.toInt ∧ n.toInt ≤ 2 ^ 53) → RoundsApart ns := by
  refine ⟨fun a b => ⟨orderedBy_rounded a b, eq_words a b, fun h => ⟨h.orderedBy, h.existsUnique⟩,
    fun h => ?_⟩, ?_, fun ns => roundsApart_of_le⟩
  · obtain ⟨heq, hne⟩ := Classical.not_imp.1 (mt roundsApart_pair_iff.2 h)
    exact not_holds_of_rounded_eq heq hne
  · intro source scope s t first rest name hitems
    obtain ⟨greatest, least, hmax, hmin, hgreatest, hleast⟩ := exec_reduce_words env hitems
    exact ⟨greatest, least, hmax, hmin, hgreatest, hleast, fun h => h.extremes hgreatest hleast⟩

/-- The extremes of small integers are found. -/
theorem reduce_small_integers :
    (evaluate ⟨none, {}⟩ (.reduce "max" (.literal (.list ([3, 9, -2].map .int)))) none).exec
        (.fresh #[]) = (.ok (.int 9), .fresh #[]) ∧
      (evaluate ⟨none, {}⟩ (.reduce "min" (.literal (.list ([3, 9, -2].map .int)))) none).exec
        (.fresh #[]) = (.ok (.int (-2)), .fresh #[]) := by
  obtain ⟨-, hreduce, hapart⟩ := integers_compare_rounded ⟨none, {}⟩
  obtain ⟨greatest, least, hmax, hmin, hgreatest, hleast, hextremes⟩ := hreduce _ none (.fresh #[])
    _ 3 [9, -2] _ (exec_collection_literal _ _ _ _)
  have hbounds := hextremes (hapart _ (by simp))
  have hmax' : greatest = 9 := by
    have hnine := (hbounds 9 (by decide)).2
    have hmem := hgreatest.mem
    simp only [List.mem_cons, List.not_mem_nil, or_false] at hmem
    rcases hmem with rfl | rfl | rfl
    · exact absurd hnine (by decide)
    · rfl
    · exact absurd hnine (by decide)
  have hmin' : least = -2 := by
    have htwo := (hbounds (-2) (by decide)).1
    have hmem := hleast.mem
    simp only [List.mem_cons, List.not_mem_nil, or_false] at hmem
    rcases hmem with rfl | rfl | rfl
    · exact absurd htwo (by decide)
    · exact absurd htwo (by decide)
    · rfl
  rw [hmax'] at hmax
  rw [hmin'] at hmin
  exact ⟨hmax, hmin⟩

/-- `2 ^ 53 + 1` is rounded to `2 ^ 53`: the two are not ordered, although they are not equal, and a
list of both has the lesser one as its greatest. -/
theorem neighbours_not_ordered :
    let less : Int64 := 9007199254740992
    let more : Int64 := 9007199254740993
    less.toInt < more.toInt ∧
      (∀ op ∈ [BinaryOp.lt, .eq, .gt],
        op.apply (.int less) (.int more) = .ok (.bool false)) ∧
      ∀ s, (evaluate ⟨none, {}⟩ (.reduce "max" (.literal (.list [.int less, .int more])))
        none).exec s = (.ok (.int less), s) := by
  intro less more
  have hrounded : rounded more = rounded less := by decide
  have hordered := orderedBy_rounded less more
  refine ⟨by decide, ?_, fun s => ?_⟩
  · have hlt := hordered.lt
    have hgt := hordered.gt
    rw [hrounded] at hlt hgt
    simp only [lt_irrefl, decide_false] at hlt hgt
    exact forall_mem_orders.2 ⟨hlt, eq_words less more, hgt⟩
  · have hfold : Reducer.max.run none [.int less, .int more] = .ok (.int less) := by
      have hstep := max_step less more
      rw [hrounded, if_neg (lt_irrefl _)] at hstep
      change Reducer.max.apply (.int less) (.int more) >>= pure = _
      rw [hstep]
      rfl
    exact exec_reduce _ (r := .max) rfl (exec_collection_literal _ _ _ _) hfold

end DawScript
