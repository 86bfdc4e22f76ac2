import AffixRules.Pool.Aggregate
import AffixRules.Proofs.Pool.Roster

/-! A stat is a matter of the terms that are not blocked, each kind in the order in which it was
added. However flat terms and factors were interleaved, the sum is taken before the product. -/
namespace AffixRules

/-- What an affix contributes: its value, or nothing where it is blocked. -/
def Affix.term? (context : Context) (a : Affix) : Except Failure (Option Float) := do
  let v ← a.verdictIn context .none
  if v.blocked then pure none else (a.valueIn context .none).map some

/-- The values of the affixes that are not blocked. -/
def terms (context : Context) (as : List Affix) : Except Failure (List Float) :=
  (as.mapM (Affix.term? context)).map fun ts => ts.filterMap id

/-- The terms summed from zero are added to the base before the factors are multiplied from one. -/
def combined (base : Float) (flats factors : List Float) : Float :=
  (base + flats.foldl (· + ·) 0) * factors.foldl (· * ·) 1

theorem term?_of_verdict {a : Affix} {context : Context} {v : Verdict}
    (hv : a.verdictIn context .none = .ok v) :
    a.term? context =
      if v.blocked then .ok none
      else (a.effect.magnitude context.toScene (a.subject .none) .none v).map some := by
  simp only [Affix.term?, Affix.valueIn, hv]
  rfl

theorem terms_nil (context : Context) : terms context [] = .ok [] := by
  simp [terms, pure, Except.pure, Except.map]

theorem terms_cons (context : Context) (a : Affix) (as : List Affix) :
    terms context (a :: as) =
      (a.term? context).bind fun t => (terms context as).map (t.toList ++ ·) := by
  rw [terms, List.mapM_cons, terms]
  cases a.term? context with
  | error e => rfl
  | ok t =>
    cases as.mapM (Affix.term? context) with
    | error e => rfl
    | ok ts => cases t <;> rfl

theorem values_contributions (context : Context) (as : List Affix) :
    (contributions context as).map (fun cs => cs.map (·.value)) = terms context as := by
  induction as with
  | nil => rw [terms_nil]; rfl
  | cons a as ih =>
    rw [terms_cons, ← ih, contributions]
    cases hv : a.verdictIn context .none with
    | error e => simp [Affix.term?, hv, bind, Except.bind, Except.map]
    | ok v =>
      rw [term?_of_verdict hv]
      change Except.map _ (if v.blocked then _ else _) = _
      split
      · cases contributions context as <;> rfl
      · cases a.effect.magnitude context.toScene (a.subject .none) .none v with
        | error e => rfl
        | ok x => cases contributions context as <;> rfl

namespace Pool

theorem stat_eq (p : Pool) (context : Context) (name : Label) (base : Float) :
    p.stat context name base = (do
      let flats ← terms context (p.matching (some .statFlat) (some name))
      let factors ← terms context (p.matching (some .statMultiplier) (some name))
      pure (combined base flats factors)) := by
  rw [stat, categorySum, categoryProduct, ← values_contributions, ← values_contributions, total_eq,
    product_eq]
  cases contributions context (p.matching (some .statFlat) (some name)) with
  | error e => rfl
  | ok flats =>
    cases contributions context (p.matching (some .statMultiplier) (some name)) <;> rfl

/-- The affixes that a roster lists in a category with a stat. -/
def Roster.forStat (r : Roster) (p : Pool) (c : Category) (stat : Label) : List Affix :=
  ((r.inCategory c).map p.affix).filter fun a => a.statName = stat

theorem Lists.matching {p : Pool} {r : Roster} (h : p.Lists r) (c : Category) (stat : Label) :
    p.matching (some c) (some stat) = r.forStat p c stat := by
  rw [Roster.forStat, ← h.category, List.filter_map]
  rfl

variable {σ : Type} [Generator σ]

/-- The terms of a stat in a category after a run of edits on an empty pool, in the order in which
they were added. -/
def termsAfter (affixes : Store Affix) (es : List (Edit σ)) (context : Context) (name : Label)
    (c : Category) : Except Failure (List Float) :=
  let r := enroll { affixes } {} es
  terms context (r.forStat (after { affixes } es) c name)

theorem stat_after (affixes : Store Affix) (es : List (Edit σ)) (context : Context) (name : Label)
    (base : Float) :
    (after { affixes } es).stat context name base = (do
      let flats ← termsAfter affixes es context name .statFlat
      let factors ← termsAfter affixes es context name .statMultiplier
      pure (combined base flats factors)) := by
  have h : (after { affixes } es).Lists (enroll { affixes } {} es) := (Lists.empty affixes).after es
  rw [stat_eq, h.matching, h.matching]
  rfl

end Pool

variable {σ : Type} [Generator σ]

/-- After any run of edits on an empty pool, a stat is the base and the sum of its flat terms, times
the product of its factors, each kind in the order of the additions. Two pools with the same terms
give the same result, whatever else they hold and however the terms were interleaved. -/
theorem stat_from_terms_in_order (affixes : Store Affix) (es : List (Pool.Edit σ))
    (context : Context) (name : Label) (base : Float) :
    (Pool.after { affixes } es).stat context name base = (do
        let flats ← Pool.termsAfter affixes es context name .statFlat
        let factors ← Pool.termsAfter affixes es context name .statMultiplier
        pure (combined base flats factors)) ∧
      (Pool.enroll { affixes } {} es).filings.Sublist (Pool.files { affixes } es) ∧
      ∀ (others : Store Affix) (fs : List (Pool.Edit σ)) (view : Context) (title : Label),
        (∀ c, c = .statFlat ∨ c = .statMultiplier →
          Pool.termsAfter others fs view title c = Pool.termsAfter affixes es context name c) →
        (Pool.after { affixes := others } fs).stat view title base =
          (Pool.after { affixes } es).stat context name base := by
  refine ⟨Pool.stat_after affixes es context name base, Pool.filings_enroll_sublist _ {} es, ?_⟩
  intro others fs view title h
  rw [Pool.stat_after, Pool.stat_after, h .statFlat (.inl rfl), h .statMultiplier (.inr rfl)]

/-- A blocked term, a term of another stat and one that was taken out again leave no trace. -/
theorem stat_from_terms_in_order_interleaved :
    let flat (value : Float) : Affix :=
      { name := "Edge", category := .statFlat, statName := "strength", effect := { value } }
    let factor (value : Float) : Affix :=
      { name := "Grip", category := .statMultiplier, statName := "strength", effect := { value } }
    let blocked : Affix := { flat 100 with condition? := some { kind := .inCombat } }
    let other : Affix := { flat 50 with statName := "wisdom" }
    let item (id : String) (affixes : List Affix) : Item := { serial := 0, id, name := id, affixes }
    let es : List (Pool.Edit Script) :=
      [.register (item "belt" [flat 5, factor 1.5, flat 2, factor 2])]
    let fs : List (Pool.Edit Script) :=
      [.register (item "ring" [factor 3, blocked]), .register (item "cape" [factor 1.5, other]),
        .introduce (flat 5), .add 4 none, .unregister (item "ring" []),
        .grant (factor 2) { draws := [] }, .grant (flat 2) { draws := [] }]
    (Pool.after {} fs).stat {} "strength" 1 = (Pool.after {} es).stat {} "strength" 1 ∧
      (Pool.after {} es).stat {} "strength" 1 = .ok 24 := by
  intro flat factor blocked other item es fs
  obtain ⟨hstat, -, hsame⟩ := stat_from_terms_in_order {} es {} "strength" 1
  refine ⟨hsame {} fs {} "strength" ?_, hstat.trans (by decide +kernel)⟩
  rintro c (rfl | rfl) <;> decide +kernel

end AffixRules
