import AffixRules.Modifier.Active
import AffixRules.Proofs.Content.Templates
import AffixRules.Proofs.Number.Exact
import AffixRules.Proofs.Pool.Stat

/-! The working value of a die under combat modifiers is one formula. The modifiers in force become
affixes of a pool, and the pool answers with their numbers: nothing on the way reads the context. -/
namespace AffixRules

namespace Pool

/-- The new affixes are found under their numbers. -/
theorem affix_insertAll (p : Pool) (source? : Option Label) (as : List Affix) :
    ∀ x ∈ as.zipIdx p.affixes.next, (p.insertAll source? as).2.affix x.2 = x.1 := by
  induction as generalizing p with
  | nil => simp
  | cons a as ih =>
    intro x hx
    rw [List.zipIdx_cons, List.mem_cons] at hx
    obtain rfl | hx := hx
    · refine (affix_insertAll_of_lt (p.insert a source?).2 source? as (Nat.lt_succ_self _)).trans ?_
      simp [affix, insert, introduce, add]
    · exact ih (p.insert a source?).2 x hx

/-- A pool made of a list answers from the list. -/
theorem matching_ofAffixes (as : List Affix) (c : Category) (stat : Label) :
    (ofAffixes as).matching (some c) (some stat) =
      (as.filter fun a => a.category = c).filter fun a => a.statName = stat := by
  have hlists : (ofAffixes as).Lists (({} : Roster).enterAll none (newFilings as 0)) :=
    (Lists.empty {}).insertAll none as
  have hview : (({} : Roster).enterAll none (newFilings as 0)).inCategory c =
      (as.zipIdx.filter fun x => x.1.category = c).map Prod.snd := by
    rw [Roster.inCategory, Roster.filings_enterAll, List.nil_append, newFilings, List.filter_map,
      List.map_map]
    rfl
  have hread :
      (as.zipIdx.filter fun x => x.1.category = c).map (fun x => (ofAffixes as).affix x.2) =
        (as.zipIdx.filter fun x => x.1.category = c).map Prod.fst :=
    List.map_congr_left fun x hx => affix_insertAll {} none as x (List.mem_filter.mp hx).1
  have hfst : (as.zipIdx.filter fun x => x.1.category = c).map Prod.fst =
      as.filter fun a => a.category = c := by
    conv_rhs => rw [← List.zipIdx_map_fst 0 as, List.filter_map]
    rfl
  rw [hlists.matching, Roster.forStat, hview, List.map_map]
  exact congrArg (List.filter _) (hread.trans hfst)

end Pool

namespace Affix

/-- An affix that always applies and whose value is its own gives that value in every context. -/
theorem term?_of_plain {a : Affix} (hc : a.condition? = none) (hs : a.effect.source = .static)
    (context : Context) : a.term? context = .ok (some (a.effect.value * 1)) := by
  have hv : a.verdictIn context .none = .ok .passed := by
    rw [verdictIn, hc]
    rfl
  rw [term?_of_verdict hv]
  simp only [Effect.magnitude, Effect.base, hs]
  rfl

end Affix

theorem terms_of_forall {context : Context} {as : List Affix} {f : Affix → Float}
    (h : ∀ a ∈ as, a.term? context = .ok (some (f a))) : terms context as = .ok (as.map f) := by
  induction as with
  | nil => exact terms_nil context
  | cons a as ih =>
    rw [terms_cons, h a (by simp), ih fun b hb => h b (by simp [hb])]
    rfl

namespace Modifiers

/-- The terms that are added to a value, each times the multiplier of an affix without a
condition. -/
def flats (ms : List Modifier) : List Float :=
  (ms.filter fun m => m.modType = .flat).map fun m => m.value * 1

/-- The factors: one plus a share. -/
def factors (ms : List Modifier) : List Float :=
  (ms.filter fun m => m.modType = .percent).map fun m => (1 + m.value) * 1

/-- Modifiers of one type answer with their values, as terms of the category that the type counts
in. -/
theorem terms_of_type {type : ModifierType} {c : Category} {value : Modifier → Float}
    (hc : ∀ m : Modifier, m.toAffix.category = c ↔ m.modType = type)
    (hvalue : ∀ m : Modifier, m.modType = type → m.toAffix.effect.value = value m)
    (ms : List Modifier) (context : Context) :
    terms context ((Pool.ofAffixes (ms.map Modifier.toAffix)).matching (some c)
        (some Modifier.dieValueStat)) =
      .ok ((ms.filter fun m => m.modType = type).map fun m => value m * 1) := by
  have hstat : ∀ a ∈ (ms.map Modifier.toAffix).filter (fun a => a.category = c),
      decide (a.statName = Modifier.dieValueStat) = true := by
    intro a ha
    obtain ⟨m, -, rfl⟩ := List.mem_map.mp (List.mem_filter.mp ha).1
    exact decide_eq_true rfl
  have hmembers : (ms.map Modifier.toAffix).filter (fun a => a.category = c) =
      (ms.filter fun m => m.modType = type).map Modifier.toAffix := by
    rw [List.filter_map]
    exact congrArg (List.map _) (List.filter_congr fun m _ => decide_eq_decide.mpr (hc m))
  have hterm : ∀ a ∈ (ms.filter fun m => m.modType = type).map Modifier.toAffix,
      a.term? context = .ok (some (a.effect.value * 1)) := by
    intro a ha
    obtain ⟨m, -, rfl⟩ := List.mem_map.mp ha
    exact Affix.term?_of_plain rfl rfl context
  rw [Pool.matching_ofAffixes, List.filter_eq_self.mpr hstat, hmembers, terms_of_forall hterm,
    List.map_map]
  refine congrArg Except.ok (List.map_congr_left fun m hm => ?_)
  exact congrArg (· * 1) (hvalue m (of_decide_eq_true (List.mem_filter.mp hm).2))

theorem terms_flats (ms : List Modifier) (context : Context) :
    terms context ((Pool.ofAffixes (ms.map Modifier.toAffix)).matching (some .statFlat)
        (some Modifier.dieValueStat)) = .ok (flats ms) := by
  refine terms_of_type (fun m => ?_) (fun m h => ?_) ms context
  · cases h : m.modType <;> simp [Modifier.toAffix, h]
  · simp [Modifier.toAffix, h]

theorem terms_factors (ms : List Modifier) (context : Context) :
    terms context ((Pool.ofAffixes (ms.map Modifier.toAffix)).matching (some .statMultiplier)
        (some Modifier.dieValueStat)) = .ok (factors ms) := by
  refine terms_of_type (fun m => ?_) (fun m h => ?_) ms context
  · cases h : m.modType <;> simp [Modifier.toAffix, h]
  · simp [Modifier.toAffix, h]

variable (ms : Modifiers) (context : Context)

theorem dieValue_eq (d : Die) :
    ms.dieValue context d = (toDouble d.value).bind fun before =>
      truncate (combined before (flats (ms.inForce d.slot)) (factors (ms.inForce d.slot))) := by
  rw [dieValue, poolAt, affixesAt]
  simp only [Pool.stat_eq, terms_flats, terms_factors]
  rfl

theorem foldlM_put (ds : List Die) (values : Entries Int Int) :
    ds.foldlM (fun values d => (ms.dieValue context d).map fun n => values.put d.slot n) values =
      (ds.mapM fun d => (ms.dieValue context d).map fun n => (d.slot, n)).map
        fun pairs => pairs.foldl (fun es p => es.put p.1 p.2) values := by
  induction ds generalizing values with
  | nil => rfl
  | cons d ds ih =>
    rw [List.foldlM_cons, List.mapM_cons]
    cases ms.dieValue context d with
    | error e => rfl
    | ok n =>
      refine (ih _).trans ?_
      cases ds.mapM fun d => (ms.dieValue context d).map fun n => (d.slot, n) <;> rfl

/-- What is found by slot is what the dice give one after the other. -/
theorem handValues_eq (dice : List Die) :
    ms.handValues context dice =
      ((dice.filter fun d => !d.consumed).mapM fun d =>
        (ms.dieValue context d).map fun n => (d.slot, n)).map Entries.ofList :=
  ms.foldlM_put context _ []

/-- The values are all found, or one of the dice fails. -/
theorem exists_handValues_iff (dice : List Die) :
    (∃ values, ms.handValues context dice = .ok values) ↔
      ∀ d ∈ dice.filter fun d => !d.consumed, ∃ n, ms.dieValue context d = .ok n := by
  simp [handValues_eq, map_eq_ok_iff, exists_mapM_iff]

theorem handValues_of_forall {dice : List Die} {value : Die → Int}
    (h : ∀ d ∈ dice.filter fun d => !d.consumed, ms.dieValue context d = .ok (value d)) :
    ms.handValues context dice =
      .ok (.ofList ((dice.filter fun d => !d.consumed).map fun d => (d.slot, value d))) := by
  rw [handValues_eq]
  generalize dice.filter (fun d => !d.consumed) = ds at h ⊢
  have hpairs : (ds.mapM fun d => (ms.dieValue context d).map fun n => (d.slot, n)) =
      .ok (ds.map fun d => (d.slot, value d)) := by
    induction ds with
    | nil => rfl
    | cons d ds ih =>
      obtain ⟨hd, hds⟩ := List.forall_mem_cons.mp h
      rw [List.mapM_cons, hd, ih hds]
      rfl
  rw [hpairs]
  rfl

/-- The slots are those of the unconsumed dice, and of two dice in a slot the later one counts. -/
theorem values_of_handValues {dice : List Die} {values : Entries Int Int}
    (h : ms.handValues context dice = .ok values) :
    let unconsumed := dice.filter fun d => !d.consumed
    values.keys = (unconsumed.map (·.slot)).eraseDups ∧
      ∀ slot n, values.value? slot = some n ↔
        ∃ d, (unconsumed.filter fun d => d.slot = slot).getLast? = some d ∧
          ms.dieValue context d = .ok n := by
  intro unconsumed
  have hall := (ms.exists_handValues_iff context dice).mp ⟨values, h⟩
  choose! value hvalue using hall
  obtain rfl : .ofList (unconsumed.map fun d => (d.slot, value d)) = values :=
    Except.ok.inj ((ms.handValues_of_forall context hvalue).symm.trans h)
  refine ⟨?_, fun slot n => ?_⟩
  · rw [Entries.keys_ofList, List.map_map]
    rfl
  · rw [Entries.value?_ofList, List.filter_map, List.getLast?_map, Option.map_map,
      Option.map_eq_some_iff]
    refine exists_congr fun d => and_congr_right fun hd => ?_
    have hmem : d ∈ unconsumed := (List.mem_filter.mp (List.mem_of_getLast? hd)).1
    rw [hvalue d hmem, Except.ok.injEq]
    rfl

end Modifiers

open Modifiers in
/-- The value of a die under combat modifiers does not depend on the context. It is the working
value with the flat terms added, times the factors, of the modifiers in force at its slot in their
order, and without what is behind the point; only a value beyond the doubles, a NaN and the infinities
have none. The values of a hand are those of its unconsumed dice by slot, if each of them has one. -/
theorem die_value_is_formula (ms : Modifiers) (context view : Context) :
    (∀ d, ms.dieValue context d = ms.dieValue view d ∧
      ms.dieValue context d =
        if (Float.ofInt d.value).isInf then .error .tooLarge
        else
          let inForce := ms.filter fun m => !m.isExpired && m.appliesTo d.slot
          let x := combined (Float.ofInt d.value) (flats inForce) (factors inForce)
          if x.isNaN then .error .notANumber
          else if x.isInf then .error .infinite
          else .ok (towardZero (exactValue x))) ∧
    ∀ dice : List Die,
      let unconsumed := dice.filter fun d => !d.consumed
      ((∃ values, ms.handValues context dice = .ok values) ↔
        ∀ d ∈ unconsumed, ∃ n, ms.dieValue context d = .ok n) ∧
      ∀ values, ms.handValues context dice = .ok values →
        values.keys = (unconsumed.map (·.slot)).eraseDups ∧
          ∀ slot n, values.value? slot = some n ↔
            ∃ d, (unconsumed.filter fun d => d.slot = slot).getLast? = some d ∧
              ms.dieValue context d = .ok n := by
  refine ⟨fun d => ⟨?_, ?_⟩, fun dice =>
    ⟨ms.exists_handValues_iff context dice, fun values h => ms.values_of_handValues context h⟩⟩
  · rw [dieValue_eq, dieValue_eq]
  · rw [dieValue_eq, toDouble]
    dsimp only
    split
    · rfl
    · exact truncate_eq _

/-- A term that has expired, one for another slot and a consumed die do not count; halves are cut
off on either side of zero, and the later of two dice in a slot is the one that is found. -/
theorem die_value_is_formula_for_half_points :
    let ms : Modifiers :=
      [{ modType := .percent, value := 0.5 }, { value := 2 }, { value := 100, duration := .turns },
        { value := 10, filter := .single, target := .int 4 }]
    let die : Die := { slot := 2, value := -7 }
    let hand : List Die := [{ slot := 1, value := 3 }, { slot := 2 }, die,
      { slot := 4, value := 1, consumed := true }]
    let values : Entries Int Int := [(1, 7), (2, -7)]
    ms.dieValue {} die = ms.dieValue { hand, inCombat := true } die ∧
      ms.handValues {} hand = .ok values ∧ values.keys = [1, 2] ∧ values.value? 2 = some (-7) := by
  intro ms die hand values
  obtain ⟨hdie, hhand⟩ := die_value_is_formula ms {} { hand, inCombat := true }
  have h : ms.handValues {} hand = .ok values := by decide +kernel
  obtain ⟨hkeys, hvalue⟩ := (hhand hand).2 values h
  have hlast : ms.dieValue {} die = .ok (-7) := by decide +kernel
  exact ⟨(hdie die).1, h, hkeys.trans (by decide), (hvalue 2 (-7)).mpr ⟨die, by decide, hlast⟩⟩

end AffixRules
