import AffixRules.Proofs.Dispatch.Frame
import AffixRules.Proofs.Hand.Use

/-! Target selectors over a hand. While a use is dispatched its source is consumed, so the selector
of all dice and that of all but the source find the same dice at every point of the dispatch. -/
namespace AffixRules

namespace Stage

variable {g : Stage} {trigger : Trigger} {source? : Option DieId} {source : DieId} {t : Tray}
  {a : Affix} {b : Board}

theorem Calls.mem_sources (h : g.Calls trigger source? t source a b) :
    source ∈ g.sources source? t := by
  cases h with
  | intro hs => simp [hs]

/-- The affixes called before it have written no outline. -/
theorem Calls.outline_eq (h : g.Calls trigger source? t source a b) (i : DieId) :
    (b.tray.get i).outline = (t.get i).outline := by
  cases h with
  | @intro before after _ hs c hbefore done rest _ ha _ hdone =>
    have hown : Board.Becomes (fun _ => True) c
        (Outcome.forEach (g.applyAffix source) done c).state :=
      Board.becomes_forEach fun a _ _ _ => g.applyAffix_becomes source a fun _ _ => trivial
    rw [hdone] at hown
    exact (hown.outline_eq i).trans (outline_eq_of_fireDie hbefore i)

end Stage

variable {σ : Type} [Generator σ]

namespace Play

variable {p : Play σ} {i : DieId}

omit [Generator σ] in
/-- No effect frees a spent die. -/
theorem consumed_of_spend {u : Tray}
    (h : ∀ j, (u.get j).outline = ((p.spend i).tray.get j).outline) :
    (u.get i).consumed = true := by
  have hspent : ((p.spend i).dieOf i).consumed = true := by simp
  exact (Die.consumed_of_outline (h i)).trans hspent

omit [Generator σ] in
theorem targets_of_spend {u : Tray}
    (h : ∀ j, (u.get j).outline = ((p.spend i).tray.get j).outline) (hi : i ∈ p.hand.dice) :
    u.targets (p.spend i).hand.dice i .allExceptSource = u.targets (p.spend i).hand.dice i .all := by
  have hmem : i ∈ (p.spend i).hand.dice := (p.hand_spend i).1.symm ▸ hi
  exact (Tray.targets_allExceptSource_eq_all_iff hmem).mpr (consumed_of_spend h)

end Play

/-- For distinct dice and a source among them: a neighbor is the last die of the slot to that side,
unless it is consumed, and both neighbors are the left one and then the right one. All dice are the
unconsumed ones in hand order; without the source they are the same exactly if it is consumed, as it is
throughout the dispatch of a use. Each selector finds dice of the hand, each once, and unless it is for
the source itself only unconsumed ones; no die is its own neighbor. Where the dice stand in different
slots, their order does not matter. -/
theorem target_selectors_fit_together :
    (∀ (t : Tray) (hand : List DieId) (source : DieId), hand.Nodup → source ∈ hand →
      let found := t.targets hand source
      let slot i := (t.get i).slot
      found .self = [source] ∧
        (∀ i, i ∈ found .left ↔
          t.LastIn hand (slot source - 1) i ∧ (t.get i).consumed = false) ∧
        (∀ i, i ∈ found .right ↔
          t.LastIn hand (slot source + 1) i ∧ (t.get i).consumed = false) ∧
        found .neighbors = found .left ++ found .right ∧
        (found .all).Sublist hand ∧
        (∀ i, i ∈ found .all ↔ i ∈ hand ∧ (t.get i).consumed = false) ∧
        found .allExceptSource = (found .all).erase source ∧
        (found .allExceptSource = found .all ↔ (t.get source).consumed = true) ∧
        (∀ selector, (found selector).Nodup ∧ ∀ i ∈ found selector,
          i ∈ hand ∧ (selector ≠ .self → (t.get i).consumed = false)) ∧
        (∀ selector ∈ [TargetSelector.left, .right, .neighbors], source ∉ found selector) ∧
        ((hand.map slot).Nodup → ∀ hand', hand'.Perm hand → ∀ selector,
          (t.targets hand' source selector).Perm (found selector))) ∧
    ∀ (p : Play σ) (ref : DieRef) (s : Int), (Event.mk p (.consume ref)).usedSlot? = some s →
      ∃ i, p.locate ref = .ok i ∧ p.consume ref = (p.spend i).fire .onUse (some i) ∧
        let g : Stage := ⟨(p.spend i).scene, (p.spend i).hand.dice⟩
        ∀ j a b, g.Calls .onUse (some i) (p.spend i).tray j a b →
          j = i ∧ (b.tray.get i).consumed = true ∧
            b.tray.targets g.hand i .allExceptSource = b.tray.targets g.hand i .all ∧
            ∀ effect v targets c, g.Fires i a b effect v targets c →
              c.tray.targets g.hand i .allExceptSource = c.tray.targets g.hand i .all := by
  refine ⟨fun t hand source hn hs => ?_, fun p ref s hused => ?_⟩
  · intro found slot
    have hbeside {i : DieId} {offset : Int} : i ∈ t.beside hand source offset ↔
        t.LastIn hand (slot source + offset) i ∧ (t.get i).consumed = false := by
      rw [Tray.mem_beside_iff, Tray.ready_iff]
    have hready {i : DieId} {selector : TargetSelector} (hi : i ∈ found selector) :
        i ∈ hand ∧ (selector ≠ .self → (t.get i).consumed = false) :=
      ⟨Tray.mem_hand_of_mem_targets hs hi,
        fun hself => Tray.ready_iff.mp (Tray.ready_of_mem_targets hself hi).2⟩
    have hleft : source ∉ found .left := Tray.source_not_mem_beside (by decide)
    have hright : source ∉ found .right := Tray.source_not_mem_beside (by decide)
    refine ⟨rfl, fun i => hbeside, fun i => hbeside, rfl, List.filter_sublist, fun i => ?_,
      Tray.targets_allExceptSource hn, Tray.targets_allExceptSource_eq_all_iff hs,
      fun selector => ⟨Tray.nodup_targets hn source selector, fun i hi => hready hi⟩, ?_,
      fun hslots hand' hp selector => Tray.targets_perm hp hslots source selector⟩
    · exact List.mem_filter.trans (and_congr_right' Tray.ready_iff)
    · simp only [List.forall_mem_cons]
      refine ⟨hleft, hright, fun h => ?_, fun _ h => absurd h List.not_mem_nil⟩
      exact (List.mem_append.mp h).elim hleft hright
  · have hcases := Move.consume_cases p ref
    rw [hused] at hcases
    obtain ⟨i, hl, -, hfire⟩ := hcases
    have hi : i ∈ p.hand.dice := Play.mem_of_locate hl
    refine ⟨i, hl, hfire, ?_⟩
    intro g j a b hcalls
    have hkept := hcalls.outline_eq
    obtain rfl : j = i := List.mem_singleton.mp hcalls.mem_sources
    refine ⟨rfl, Play.consumed_of_spend hkept, Play.targets_of_spend hkept hi, ?_⟩
    intro effect v targets c hfires
    exact Play.targets_of_spend (fun k => (hfires.becomes.outline_eq k).trans (hkept k)) hi

/-- A hand with two dice in one slot, the later of them consumed, and the use of a die whose affix aims
at all dice but its own. -/
theorem target_selectors_fit_together_in_crowded_slot :
    let t : Tray :=
      { cells := [(0, { slot := 0 }), (1, { slot := 1 }), (2, { slot := 2 }),
          (3, { slot := 2, consumed := true })]
        next := 4 }
    let hand : List DieId := [0, 1, 2, 3]
    let spark : Affix :=
      { name := "Spark", trigger := .onUse, selector := .allExceptSource
        effect := { kind := .flatBonus, value := 1 } }
    let p : Play Script :=
      { tray := { cells := [(0, { slot := 0, inherent := [spark] }), (1, { slot := 1 })], next := 2 }
        hand := { dice := [0, 1] }, scene := {}, chance := { draws := [] } }
    let g : Stage := ⟨(p.spend 0).scene, (p.spend 0).hand.dice⟩
    let b : Board := { tray := (p.spend 0).tray }
    hand.Nodup ∧ 1 ∈ hand ∧ t.targets hand 1 .left = [0] ∧ 2 ∉ t.targets hand 1 .right ∧
      t.targets hand 1 .allExceptSource ≠ t.targets hand 1 .all ∧
      t.targets hand 3 .allExceptSource = t.targets hand 3 .all ∧
      (t.targets [2, 0, 1] 1 .neighbors).Perm (t.targets [0, 1, 2] 1 .neighbors) ∧
      (Event.mk p (.consume (.slot 0))).usedSlot? = some 0 ∧
      g.Calls .onUse (some 0) (p.spend 0).tray 0 spark b ∧
      g.Fires 0 spark b spark.effect .passed [1] b ∧
      b.tray.targets g.hand 0 .allExceptSource = b.tray.targets g.hand 0 .all := by
  intro t hand spark p g b
  have hn : hand.Nodup := by decide
  have hone : 1 ∈ hand := by decide
  obtain ⟨hselect, hdispatch⟩ := target_selectors_fit_together (σ := Script)
  obtain ⟨-, -, hright, -, -, -, -, hpart, -⟩ := hselect t hand 1 hn hone
  obtain ⟨-, -, -, -, -, -, -, hmeet, -⟩ := hselect t hand 3 hn (by decide)
  obtain ⟨-, -, -, -, -, -, -, -, -, -, horder⟩ := hselect t [0, 1, 2] 1 (by decide) (by decide)
  have hused : (Event.mk p (.consume (.slot 0))).usedSlot? = some 0 := by decide +kernel
  have hsources : g.sources (some 0) (p.spend 0).tray = [] ++ 0 :: [] := rfl
  have haffixes : ((p.spend 0).tray.get 0).affixesOn .onUse = .ok ([] ++ spark :: []) := by
    decide +kernel
  have hcalls : g.Calls .onUse (some 0) (p.spend 0).tray 0 spark b :=
    .intro hsources rfl haffixes rfl
  have hfires : g.Fires 0 spark b spark.effect .passed [1] b := .primary rfl rfl
  obtain ⟨i, hl, -, hall⟩ := hdispatch p (.slot 0) 0 hused
  obtain rfl : i = 0 := by
    cases hl
    rfl
  obtain ⟨-, -, -, hfound⟩ := hall 0 spark b hcalls
  refine ⟨hn, hone, by decide, fun h => ?_, fun h => ?_, hmeet.mpr (by decide),
    horder (by decide) [2, 0, 1] (by decide) .neighbors, hused, hcalls, hfires,
    hfound _ _ _ _ hfires⟩
  · have hlast : t.lastAt? hand 2 = some 2 := Tray.lastAt?_eq_some_iff.mpr ((hright 2).mp h).1
    exact absurd hlast (by decide)
  · exact absurd (hpart.mp h) (by decide)

end AffixRules
