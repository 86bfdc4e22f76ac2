import AffixRules.Pool.Aggregate
import AffixRules.Proofs.Pool.Registration

/-! The aggregates of a pool against its affixes one by one. An aggregate takes the value of each
affix that is not blocked, in the order of the pool, and fails where the first of these does; so a
pool without one of its blocked affixes aggregates alike. -/
namespace AffixRules

variable {context : Context} {a : Affix} {v : Verdict}

/-- Whether the condition blocks the affix. One that cannot be evaluated does not: its failure shows
in the value. -/
def Affix.isBlocked (context : Context) (a : Affix) : Bool :=
  match a.verdictIn context .none with
  | .ok v => v.blocked
  | .error _ => false

theorem isBlocked_of_verdict (hv : a.verdictIn context .none = .ok v) :
    a.isBlocked context = v.blocked := by
  rw [Affix.isBlocked, hv]

theorem valueIn_of_verdict {given : Subject} (hv : a.verdictIn context given = .ok v) :
    a.valueIn context given = a.effect.magnitude context.toScene (a.subject given) .none v := by
  rw [Affix.valueIn, hv]
  rfl

theorem valueIn_of_blocked {given : Subject} (hv : a.verdictIn context given = .ok v)
    (hb : v.blocked = true) : a.valueIn context given = .ok 0 := by
  rw [valueIn_of_verdict hv, Effect.magnitude, if_pos hb]

/-- The affixes that are not blocked. -/
def unblocked (context : Context) (as : List Affix) : List Affix :=
  as.filter fun a => !a.isBlocked context

/-- What the affixes that are not blocked are worth, each taken by itself. -/
def unblockedValues (context : Context) (as : List Affix) : Except Failure (List Float) :=
  (unblocked context as).mapM fun a => a.valueIn context .none

theorem unblocked_cons_of_blocked (hb : a.isBlocked context = true) (as : List Affix) :
    unblocked context (a :: as) = unblocked context as := by
  simp [unblocked, hb]

theorem unblocked_cons_of_open (hb : a.isBlocked context = false) (as : List Affix) :
    unblocked context (a :: as) = a :: unblocked context as := by
  simp [unblocked, hb]

theorem unblockedValues_cons_of_open (hb : a.isBlocked context = false) (as : List Affix) :
    unblockedValues context (a :: as) =
      (a.valueIn context .none).bind fun x => (unblockedValues context as).map (x :: ·) := by
  rw [unblockedValues, unblocked_cons_of_open hb, List.mapM_cons, unblockedValues]
  rfl

/-- Evaluating the condition once and passing the verdict on gives the value of the affix taken by
itself. -/
theorem contributions_cons (context : Context) (a : Affix) (as : List Affix) :
    contributions context (a :: as) = (a.verdictIn context .none).bind fun v =>
      if v.blocked then contributions context as
      else (a.valueIn context .none).bind fun x =>
        (contributions context as).map (⟨a, v, x⟩ :: ·) := by
  cases hv : a.verdictIn context .none with
  | error e =>
    rw [contributions, hv]
    rfl
  | ok v =>
    rw [contributions, hv, valueIn_of_verdict hv]
    change (if v.blocked then _ else _) = if v.blocked then _ else _
    split
    · rfl
    · cases a.effect.magnitude context.toScene (a.subject .none) .none v with
      | error e => rfl
      | ok x => cases contributions context as <;> rfl

theorem map_contributions {β : Type} (context : Context) (as : List Affix)
    (f : List Affix → List Float → β) :
    (contributions context as).map (fun cs => f (cs.map (·.affix)) (cs.map (·.value))) =
      (unblockedValues context as).map (f (unblocked context as)) := by
  induction as generalizing f with
  | nil => rfl
  | cons a as ih =>
    rw [contributions_cons]
    cases hv : a.verdictIn context .none with
    | error e =>
      have hopen : a.isBlocked context = false := by rw [Affix.isBlocked, hv]
      have hvalue : a.valueIn context .none = .error e := by
        rw [Affix.valueIn, hv]
        rfl
      rw [unblockedValues_cons_of_open hopen, hvalue]
      rfl
    | ok v =>
      have hgate : a.isBlocked context = v.blocked := isBlocked_of_verdict hv
      simp only [Except.bind]
      cases hb : v.blocked with
      | true =>
        rw [unblockedValues, unblocked_cons_of_blocked (hgate.trans hb)]
        exact ih f
      | false =>
        rw [unblockedValues_cons_of_open (hgate.trans hb), unblocked_cons_of_open (hgate.trans hb)]
        cases a.valueIn context .none with
        | error e => rfl
        | ok x =>
          have hrest := ih fun bs xs => f (a :: bs) (x :: xs)
          cases hcs : contributions context as <;>
            cases hxs : unblockedValues context as <;> rw [hcs, hxs] at hrest <;> exact hrest

namespace Pool

/-- Two pools with the same aggregates. -/
structure SameAggregates (p q : Pool) (context : Context) : Prop where
  categorySum : ∀ c? stat?, q.categorySum context c? stat? = p.categorySum context c? stat?
  categoryProduct : ∀ c? stat?,
    q.categoryProduct context c? stat? = p.categoryProduct context c? stat?
  stat : ∀ name base, q.stat context name base = p.stat context name base
  grantedActions : q.grantedActions context = p.grantedActions context
  grantedActionIds : q.grantedActionIds context = p.grantedActionIds context
  tagSum : ∀ tag, q.tagSum context tag = p.tagSum context tag
  tagCount : ∀ tag, q.tagCount context tag = p.tagCount context tag
  hasTagged : ∀ tag, q.hasTagged context tag = p.hasTagged context tag

/-- The affixes with a tag, in the order of the pool. -/
def tagged (p : Pool) (tag : Label) : List Affix :=
  (p.members.map p.affix).filter fun a => a.hasTag tag

variable (p q : Pool)

theorem taggedContributions_eq (context : Context) (tag : Label) :
    p.taggedContributions context tag = contributions context (p.tagged tag) := by
  rw [tagged, List.filter_map]
  rfl

theorem categorySum_eq (context : Context) (c? : Option Category) (stat? : Option Label) :
    p.categorySum context c? stat? =
      (unblockedValues context (p.matching c? stat?)).map (List.foldl (· + ·) 0) := by
  rw [categorySum, total_eq]
  exact map_contributions context _ fun _ => List.foldl (· + ·) 0

theorem categoryProduct_eq (context : Context) (c? : Option Category) (stat? : Option Label) :
    p.categoryProduct context c? stat? =
      (unblockedValues context (p.matching c? stat?)).map (List.foldl (· * ·) 1) := by
  rw [categoryProduct, product_eq]
  exact map_contributions context _ fun _ => List.foldl (· * ·) 1

theorem grantedActions_eq (context : Context) :
    p.grantedActions context =
      (unblockedValues context (p.matching (some .grantedAction) none)).map fun _ =>
        unblocked context (p.matching (some .grantedAction) none) :=
  map_contributions context _ fun as _ => as

theorem tagSum_eq (context : Context) (tag : Label) :
    p.tagSum context tag =
      (unblockedValues context (p.tagged tag)).map (List.foldl (· + ·) 0) := by
  rw [tagSum, taggedContributions_eq, total_eq]
  exact map_contributions context _ fun _ => List.foldl (· + ·) 0

theorem tagCount_eq (context : Context) (tag : Label) :
    p.tagCount context tag =
      (unblockedValues context (p.tagged tag)).map fun _ =>
        (unblocked context (p.tagged tag)).length := by
  rw [tagCount, taggedContributions_eq, ← map_contributions context _ fun as _ => as.length]
  simp

theorem hasTagged_eq (context : Context) (tag : Label) :
    p.hasTagged context tag =
      (unblockedValues context (p.tagged tag)).map fun _ =>
        decide (0 < (unblocked context (p.tagged tag)).length) := by
  rw [hasTagged, tagCount_eq]
  cases unblockedValues context (p.tagged tag) <;> rfl

variable {p q}

/-- Aggregates look at nothing but the affixes that are not blocked. -/
theorem sameAggregates_of_unblocked
    (hmatching : ∀ c? stat?,
      unblocked context (q.matching c? stat?) = unblocked context (p.matching c? stat?))
    (htagged : ∀ tag, unblocked context (q.tagged tag) = unblocked context (p.tagged tag)) :
    p.SameAggregates q context := by
  have hsum : ∀ c? stat?, q.categorySum context c? stat? = p.categorySum context c? stat? := by
    simp [categorySum_eq, unblockedValues, hmatching]
  have hproduct : ∀ c? stat?,
      q.categoryProduct context c? stat? = p.categoryProduct context c? stat? := by
    simp [categoryProduct_eq, unblockedValues, hmatching]
  have hactions : q.grantedActions context = p.grantedActions context := by
    simp [grantedActions_eq, unblockedValues, hmatching]
  constructor
  · exact hsum
  · exact hproduct
  · intro name base
    rw [stat, stat, hsum, hproduct]
  · exact hactions
  · rw [grantedActionIds, grantedActionIds, hactions]
  · simp [tagSum_eq, unblockedValues, htagged]
  · simp [tagCount_eq, unblockedValues, htagged]
  · simp [hasTagged_eq, unblockedValues, htagged]

/-- Of some members those whose affixes are not blocked. -/
def openAmong (p : Pool) (context : Context) (is : List AffixId) : List AffixId :=
  is.filter fun i => !(p.affix i).isBlocked context

theorem unblocked_map_affix (p : Pool) (context : Context) (is : List AffixId) :
    unblocked context (is.map p.affix) = (p.openAmong context is).map p.affix := by
  rw [unblocked, List.filter_map]
  rfl

theorem openAmong_filter (p : Pool) (context : Context) (test : AffixId → Bool)
    (is : List AffixId) :
    p.openAmong context (is.filter test) = (p.openAmong context is).filter test :=
  List.filter_comm ..

theorem openAmong_erase {i : AffixId} (hb : (p.affix i).isBlocked context = true)
    (is : List AffixId) : p.openAmong context (is.erase i) = p.openAmong context is := by
  rw [openAmong, ← List.erase_filter, List.erase_of_not_mem]
  · rfl
  · simp [hb]

theorem openAmong_erase_if {i : AffixId} (hb : (p.affix i).isBlocked context = true) (c : Prop)
    [Decidable c] (is : List AffixId) :
    p.openAmong context (if c then is.erase i else is) = p.openAmong context is := by
  split
  · exact openAmong_erase hb is
  · rfl

/-- The members of a category, and those of the pool, without a blocked one. -/
theorem openAmong_remove {i : AffixId} (hb : (p.affix i).isBlocked context = true) :
    (∀ c, p.openAmong context ((p.remove i).2.inCategory c) =
        p.openAmong context (p.inCategory c)) ∧
      p.openAmong context (p.remove i).2.members = p.openAmong context p.members := by
  by_cases hi : i ∈ p.inCategory (p.affix i).category
  · constructor
    · intro c
      rw [inCategory_remove hi]
      exact openAmong_erase_if hb _ _
    · have hlist := fun e : Category × List AffixId =>
        openAmong_erase_if hb (e.1 = (p.affix i).category) e.2
      simp only [openAmong] at hlist
      rw [remove_of_mem hi]
      simp [members, editCategory, Entries.values, openAmong, List.filter_flatten, hlist,
        Function.comp_def]
  · rw [remove_of_not_mem hi]
    exact ⟨fun _ => rfl, rfl⟩

/-- Without a blocked affix the aggregates are what they were. -/
theorem sameAggregates_remove {i : AffixId} (hb : (p.affix i).isBlocked context = true) :
    p.SameAggregates (p.remove i).2 context := by
  have haffix : (p.remove i).2.affix = p.affix := by
    rw [remove]
    split <;> rfl
  obtain ⟨hcategory, hmembers⟩ := openAmong_remove hb
  refine sameAggregates_of_unblocked (fun c? stat? => ?_) fun tag => ?_
  · rw [matching, matching, haffix, unblocked_map_affix, unblocked_map_affix]
    refine congrArg (List.map p.affix) ?_
    cases stat? with
    | none =>
      cases c? with
      | none => exact hmembers
      | some c => exact hcategory c
    | some stat =>
      simp only [Option.elim_some, forStat, openAmong_filter, haffix]
      cases c? with
      | none => rfl
      | some c => exact congrArg (List.filter _) (hcategory c)
  · rw [tagged, tagged, haffix, List.filter_map, List.filter_map, unblocked_map_affix,
      unblocked_map_affix, openAmong_filter, openAmong_filter, hmembers]

/-- Of different keys only one adds its list. -/
theorem flatMap_of_single {κ : Type} [DecidableEq κ] {c : κ} (is : List AffixId) {ks : List κ}
    (hks : ks.Nodup) :
    (ks.flatMap fun k => if k = c then is else []) = if c ∈ ks then is else [] := by
  induction ks with
  | nil => rfl
  | cons k ks ih =>
    obtain ⟨hk, hks⟩ := List.nodup_cons.mp hks
    by_cases hkc : k = c
    · subst hkc
      simp [ih hks, hk]
    · simp [ih hks, hkc, Ne.symm hkc]

/-- With each category once and each member under its own, a category lists its members in the order
of the pool. -/
theorem inCategory_eq_filter_members (hkeys : p.byCategory.keys.Nodup) (hfiled : p.Filed)
    (c : Category) : p.inCategory c = p.members.filter fun i => (p.affix i).category = c := by
  have hpart : ∀ k, ((p.inCategory k).filter fun i => (p.affix i).category = c) =
      if k = c then p.inCategory c else [] := by
    intro k
    split
    next hk =>
      subst hk
      exact List.filter_eq_self.mpr fun i hi => decide_eq_true (hfiled k i hi)
    next hk =>
      exact List.filter_eq_nil_iff.mpr fun i hi => by simpa [hfiled k i hi] using hk
  rw [members_eq hkeys, List.filter_flatMap, funext hpart, flatMap_of_single _ hkeys]
  split
  · rfl
  next hc => exact inCategory_of_not_mem_keys hc

/-- The matching affixes are those of the pool with the category, and with the stat if one is given,
in the order of the pool. -/
theorem matching_eq_filter_members (hkeys : p.byCategory.keys.Nodup) (hfiled : p.Filed)
    (c : Category) (stat? : Option Label) :
    p.matching (some c) stat? = (p.members.map p.affix).filter fun a =>
      a.category = c ∧ ∀ stat ∈ stat?, a.statName = stat := by
  have hcategory := inCategory_eq_filter_members hkeys hfiled c
  rw [List.filter_map, matching]
  refine congrArg (List.map p.affix) ?_
  cases stat? with
  | none => simpa [select, Function.comp_def] using hcategory
  | some stat =>
    simp only [Option.elim_some, forStat, Option.map_some, Option.getD_some, hcategory,
      List.filter_filter]
    refine List.filter_congr fun i _ => ?_
    simp [Bool.and_comm]

end Pool

/-- Sums and products of a pool fold the values of the matching affixes that are not blocked, each
taken by itself, in the order of the pool; the granted actions list those affixes and the tag
queries count them. Each fails where the first of the values does. A blocked affix is worth zero,
and the pool without it has the same aggregates. -/
theorem aggregates_fold_unblocked (p : Pool) (context : Context) :
    (∀ (c? : Option Category) (stat? : Option Label),
        p.categorySum context c? stat? =
            (unblockedValues context (p.matching c? stat?)).map (List.foldl (· + ·) 0) ∧
          p.categoryProduct context c? stat? =
            (unblockedValues context (p.matching c? stat?)).map (List.foldl (· * ·) 1)) ∧
      (p.grantedActions context =
        (unblockedValues context (p.matching (some .grantedAction) none)).map fun _ =>
          unblocked context (p.matching (some .grantedAction) none)) ∧
      (∀ tag : Label,
        p.tagSum context tag =
            (unblockedValues context (p.tagged tag)).map (List.foldl (· + ·) 0) ∧
          (p.tagCount context tag = (unblockedValues context (p.tagged tag)).map fun _ =>
            (unblocked context (p.tagged tag)).length) ∧
          p.hasTagged context tag = (unblockedValues context (p.tagged tag)).map fun _ =>
            decide (0 < (unblocked context (p.tagged tag)).length)) ∧
      (∀ as : List Affix, (∃ xs, unblockedValues context as = .ok xs) ↔
        ∀ a ∈ as, a.isBlocked context = false → ∃ x, a.valueIn context .none = .ok x) ∧
      (p.byCategory.keys.Nodup → p.Filed → ∀ (c : Category) (stat? : Option Label),
        p.matching (some c) stat? = (p.members.map p.affix).filter fun a =>
          a.category = c ∧ ∀ stat ∈ stat?, a.statName = stat) ∧
      (∀ (a : Affix) (given : Subject) (v : Verdict), a.verdictIn context given = .ok v →
        v.blocked = true → a.valueIn context given = .ok 0) ∧
      ∀ i : AffixId, (p.affix i).isBlocked context = true →
        p.SameAggregates (p.remove i).2 context := by
  refine ⟨?sums, p.grantedActions_eq context, ?tags, ?answers, Pool.matching_eq_filter_members,
    fun _ _ _ => valueIn_of_blocked, fun _ => Pool.sameAggregates_remove⟩
  case sums => exact fun c? stat? =>
    ⟨p.categorySum_eq context c? stat?, p.categoryProduct_eq context c? stat?⟩
  case tags => exact fun tag =>
    ⟨p.tagSum_eq context tag, p.tagCount_eq context tag, p.hasTagged_eq context tag⟩
  case answers =>
    intro as
    rw [unblockedValues, exists_mapM_iff]
    simp [unblocked]

/-- A stat affix stands for its own stat. The blocked one would be worth more than the doubles hold,
and neither its value nor its place in the pool shows. -/
theorem aggregates_fold_unblocked_beside_blocked :
    let edge : Affix :=
      { name := "Edge", category := .statFlat, statName := "strength", tags := ["steel"]
        effect := { value := 0.5, source := .selfValueFraction } }
    let echo : Affix :=
      { name := "Echo", category := .statFlat, statName := "strength", tags := ["steel"]
        effect := { source := .contextUsedCount }, condition? := some { kind := .inCombat } }
    let grip : Affix :=
      { name := "Grip", category := .statFlat, statName := "strength", effect := { value := 3 } }
    let ring : Affix := { edge with name := "Ring", category := .damageFlat }
    let context : Context :=
      { player := { stats := [("strength", some 8)] }, usedCount := Int.pow 10 309 }
    let p := Pool.ofAffixes [ring, edge, echo, grip]
    p.categorySum context (some .statFlat) (some "strength") = .ok 7 ∧
      (∃ xs, unblockedValues context (p.tagged "steel") = .ok xs) ∧
      p.tagCount context "steel" = .ok 2 ∧
      p.matching (some .statFlat) none = [edge, echo, grip] ∧
      echo.valueIn context (.number 5) = .ok 0 ∧ p.SameAggregates (p.remove 2).2 context := by
  intro edge echo grip ring context p
  have hblocked : echo.verdictIn context (.number 5) = .ok { blocked := true } := by decide +kernel
  have hkeys : p.byCategory.keys.Nodup := by decide
  have hfiled : p.Filed := fun c => by cases c <;> decide
  obtain ⟨hsums, -, htags, hanswers, hmatching, hzero, hremove⟩ :=
    aggregates_fold_unblocked p context
  refine ⟨(hsums _ _).1.trans (by decide +kernel), (hanswers _).mpr ?_,
    (htags _).2.1.trans (by decide +kernel), (hmatching hkeys hfiled _ _).trans (by decide +kernel),
    hzero echo _ _ hblocked rfl, hremove 2 (by decide +kernel)⟩
  intro a ha hopen
  have htagged : p.tagged "steel" = [ring, edge, echo] := by decide +kernel
  rw [htagged] at ha
  obtain rfl | rfl | rfl : a = ring ∨ a = edge ∨ a = echo := by simpa using ha
  · exact ⟨4, by decide +kernel⟩
  · exact ⟨4, by decide +kernel⟩
  · exact absurd hopen (by decide +kernel)

/-- An open affix whose value cannot be found is neither listed nor counted: the queries fail. -/
theorem open_affix_without_value_fails_queries :
    let echo : Affix :=
      { name := "Echo", category := .grantedAction, tags := ["echo"]
        effect := { source := .contextUsedCount } }
    let context : Context := { usedCount := Int.pow 10 309 }
    let p := Pool.ofAffixes [echo]
    echo.verdictIn context .none = .ok .passed ∧
      unblocked context (p.matching (some .grantedAction) none) = [echo] ∧
      p.grantedActions context = .error .tooLarge ∧
      unblocked context (p.tagged "echo") = [echo] ∧
      p.tagCount context "echo" = .error .tooLarge ∧
      p.hasTagged context "echo" = .error .tooLarge := by
  decide +kernel

end AffixRules
