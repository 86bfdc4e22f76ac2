import AffixRules.Proofs.Hand.InPlace
import Mathlib.Data.List.Nodup

/-! The scene's tally of used dice. In a run that stays with one scene from a roll of the hand on,
the marked slots are those of the consumed dice and their count is how many these are. -/
namespace AffixRules

variable {σ : Type}

/-- The scene goes with every move of the hand, and between moves nobody else marks its slots. -/
def Event.inScene (e : Event σ) : Bool :=
  match e.move with
  | .setHand _ _ => false
  | .restore _ inScene => inScene
  | .resetTurn inScene => inScene
  | .supply scene _ =>
    scene.used = e.before.scene.used && scene.usedCount = e.before.scene.usedCount
  | _ => true

theorem Scene.markUsed_of_not_mem {s : Scene} {slot : Int} (h : slot ∉ s.used) :
    s.markUsed slot = { s with used := s.used ++ [slot], usedCount := s.usedCount + 1 } := by
  simp [markUsed, isUsed, h]

theorem Scene.unmarkUsed_of_mem {s : Scene} (hn : s.used.Nodup) {slot : Int} (h : slot ∈ s.used) :
    s.unmarkUsed slot =
      { s with used := s.used.erase slot, usedCount := max 0 (s.usedCount - 1) } := by
  have hfilter : s.used.filter (· ≠ slot) = s.used.erase slot := by
    rw [hn.erase_eq_filter]
    exact List.filter_congr fun x _ => by rw [Bool.eq_iff_iff]; simp
  simp only [unmarkUsed, isUsed, List.contains_iff_mem.mpr h, if_true, hfilter]

namespace Play

/-- In place, with the slots that have fired marked in the scene, each counted once. -/
structure Tallied (p : Play σ) : Prop where
  inPlace : p.InPlace
  used : ∀ s, s ∈ p.scene.used ↔ s ∈ p.hand.fired
  nodup : p.scene.used.Nodup
  count : p.scene.usedCount = p.scene.used.length

theorem scene_spend (p : Play σ) (i : DieId) :
    (p.spend i).scene = p.scene.markUsed (p.dieOf i).slot := by
  unfold spend markFired
  dsimp only
  split <;> rfl

theorem InPlace.nodup_slots {p : Play σ} (hp : p.InPlace) : (p.dice.map (·.slot)).Nodup := by
  have hat : ∀ (k : Nat) (hk : k < (p.dice.map (·.slot)).length), (p.dice.map (·.slot))[k] = k := by
    intro k hk
    have hlt : k < p.hand.dice.length := by simpa [dice, Tray.dice] using hk
    have hslot := hp.slot k _ (List.getElem?_eq_getElem hlt)
    simpa [dice, Tray.dice, dieOf] using hslot
  refine List.pairwise_iff_getElem.mpr fun k l hk hl hkl => ?_
  rw [hat, hat]
  omega

namespace Tallied

variable {p q : Play σ}

theorem congr (hp : p.Tallied) (hin : q.InPlace) (hh : q.hand = p.hand)
    (hu : q.scene.used = p.scene.used) (hc : q.scene.usedCount = p.scene.usedCount) :
    q.Tallied where
  inPlace := hin
  used s := by rw [hu, hh, hp.used]
  nodup := hu ▸ hp.nodup
  count := by rw [hc, hu, hp.count]

theorem spend (hp : p.Tallied) {i : DieId} (hi : i ∈ p.hand.dice)
    (hf : (p.dieOf i).slot ∉ p.hand.fired) : (p.spend i).Tallied := by
  have hnew : (p.dieOf i).slot ∉ p.scene.used := fun h => hf ((hp.used _).mp h)
  have hscene := p.scene_spend i
  rw [Scene.markUsed_of_not_mem hnew] at hscene
  constructor
  · exact hp.inPlace.spend hi
  · intro s
    rw [hscene, mem_fired_spend, List.mem_append, List.mem_singleton, hp.used]
  · rw [hscene, List.nodup_append_comm]
    exact List.nodup_cons.mpr ⟨hnew, hp.nodup⟩
  · rw [hscene]
    simp [hp.count]

theorem mem_used (hp : p.Tallied) {i : DieId} (hi : i ∈ p.hand.dice)
    (hc : (p.dieOf i).consumed = true) : (p.dieOf i).slot ∈ p.scene.used :=
  (hp.used _).mpr ((hp.inPlace.fired _).mpr ⟨i, hi, hc, rfl⟩)

/-- A marked slot was counted, so the count stays above zero without being held there. -/
theorem usedCount_unmarkUsed (hp : p.Tallied) {slot : Int} (h : slot ∈ p.scene.used) :
    (p.scene.unmarkUsed slot).usedCount = p.scene.usedCount - 1 := by
  have hpos := List.length_pos_of_mem h
  have hcount := hp.count
  rw [Scene.unmarkUsed_of_mem hp.nodup h]
  dsimp only
  omega

theorem regain (hp : p.Tallied) {i : DieId} (hi : i ∈ p.hand.dice)
    (hc : (p.dieOf i).consumed = true) : (p.regain i true).Tallied := by
  have hmem := hp.mem_used hi hc
  have hcount : (p.regain i true).scene.usedCount = p.scene.usedCount - 1 :=
    hp.usedCount_unmarkUsed hmem
  have hused : (p.regain i true).scene.used = p.scene.used.erase (p.dieOf i).slot :=
    congrArg (·.used) (Scene.unmarkUsed_of_mem hp.nodup hmem)
  constructor
  · exact hp.inPlace.regain hi true
  · intro s
    rw [hused, hand_regain, hp.nodup.mem_erase_iff, hp.used, List.mem_filter, decide_eq_true_iff,
      and_comm]
  · rw [hused]
    exact hp.nodup.erase _
  · have hlength := List.length_erase_of_mem hmem
    have hpos := List.length_pos_of_mem hmem
    have hbefore := hp.count
    rw [hcount, hused]
    omega

theorem resetTurn (hp : p.InPlace) : (p.resetTurn true).Tallied where
  inPlace := hp.resetTurn true
  used _ := Iff.rfl
  nodup := List.nodup_nil
  count := rfl

theorem settle (hp : p.Tallied) (due : Due) : (due.settle p).state.Tallied := by
  have hin := hp.inPlace.settle due
  cases due with
  | nothing => exact hp
  | restored was => exact hp
  | dispatch on source? =>
    obtain ⟨hh, hs, -, -⟩ := p.fire_keeps on source?
    exact hp.congr hin hh (congrArg (·.used) hs) (congrArg (·.usedCount) hs)

theorem mem_used_iff (hp : p.Tallied) (s : Int) :
    s ∈ p.scene.used ↔ s ∈ p.consumedDice.map (·.slot) := by
  rw [hp.used, hp.inPlace.fired]
  simp [consumedDice, dice, Tray.dice, dieOf, and_assoc]

theorem usedCount_eq (hp : p.Tallied) : p.scene.usedCount = p.consumedDice.length := by
  have hnodup : (p.consumedDice.map (·.slot)).Nodup :=
    hp.inPlace.nodup_slots.sublist (List.filter_sublist.map _)
  have hperm := (List.perm_ext_iff_of_nodup hp.nodup hnodup).mpr hp.mem_used_iff
  rw [hp.count, hperm.length_eq, List.length_map]

theorem usedCount_restore (hp : p.Tallied) {ref : DieRef} {i : DieId} (hl : p.locate ref = .ok i)
    (hc : (p.dieOf i).consumed = true) :
    (p.restore ref true).state.scene.usedCount = p.scene.usedCount - 1 := by
  have hstate : (p.restore ref true).state = p.regain i true := by
    simp only [restore, hl, hc]
    rfl
  rw [hstate]
  exact hp.usedCount_unmarkUsed (hp.mem_used (mem_of_locate hl) hc)

/-- The verdict scales by the number of consumed dice, as a double. -/
theorem evaluate_perUsedDie (hp : p.Tallied) {c : Condition} {v : View} (hv : v.scene = p.scene)
    (hk : c.kind = .perUsedDie) :
    c.evaluate v = (toDouble p.consumedDice.length).map fun x =>
      { blocked := c.invert, multiplier := x } := by
  simp only [Condition.evaluate, Condition.verdict, hk, hv, hp.usedCount_eq]
  cases toDouble (p.consumedDice.length : Int) with
  | error e => rfl
  | ok x => cases h : c.invert <;> simp [Except.map, Verdict.scaled, Verdict.flipped]

/-- The verdict passes where at least as many dice are consumed as the threshold asks for. -/
theorem evaluate_minDiceUsed (hp : p.Tallied) {c : Condition} {v : View} (hv : v.scene = p.scene)
    (hk : c.kind = .minDiceUsed) :
    c.evaluate v =
      .ok { blocked := xor (!atLeast p.consumedDice.length c.threshold) c.invert } := by
  simp only [Condition.evaluate, Condition.verdict, hk, hv, hp.usedCount_eq]
  cases h : c.invert <;> simp [Except.map, Verdict.gate, Verdict.flipped]

end Tallied

end Play

variable [Generator σ]

theorem Play.tallied_deal {dice : List DieId} {p : Play σ} (h : (p.deal dice).answer = .ok ()) :
    (p.deal dice).state.freshBooks.Tallied where
  inPlace := inPlace_deal h
  used _ := Iff.rfl
  nodup := List.nodup_nil
  count := rfl

namespace Move

variable {m : Move σ} {p : Play σ}

theorem books_reroll_keeps (ref : DieRef) (p : Play σ) :
    ((Move.reroll ref).books p).state.hand = p.hand ∧
      ((Move.reroll ref).books p).state.scene = p.scene := by
  simp only [books]
  split
  · exact ⟨rfl, rfl⟩
  · split
    · exact ⟨rfl, rfl⟩
    · split <;> exact ⟨rfl, rfl⟩

theorem tallied_books (hb : m.breaksOff p = false) (he : (Event.mk p m).inScene = true)
    (h : m.starts p = true ∨ p.Tallied) : (m.books p).state.Tallied := by
  cases m with
  | rollHand dice =>
    cases hs : (Move.rollHand dice).starts p with
    | false =>
      obtain ⟨e, hrefused⟩ := books_rollHand_refused hs
      rw [hrefused]
      exact h.resolve_left (by simp [hs])
    | true =>
      have hok := deal_of_not_breaksOff hs hb
      rw [books_rollHand hs, Outcome.andThen, hok]
      exact Play.tallied_deal hok
  | setHand dice inScene => cases he
  | reroll ref =>
    have hp : p.Tallied := h.resolve_left (by simp [starts])
    obtain ⟨hhand, hscene⟩ := books_reroll_keeps ref p
    exact hp.congr ((books_kept rfl).inPlace hp.inPlace) hhand (congrArg (·.used) hscene)
      (congrArg (·.usedCount) hscene)
  | consume ref =>
    have hp : p.Tallied := h.resolve_left (by simp [starts])
    simp only [books]
    split
    · exact hp
    next i hl =>
      split
      · exact hp
      next hc =>
        simp only [Bool.or_eq_true, List.contains_iff_mem, not_or] at hc
        exact hp.spend (Play.mem_of_locate hl) hc.2
  | restore ref inScene =>
    have hp : p.Tallied := h.resolve_left (by simp [starts])
    obtain rfl : inScene = true := he
    simp only [books]
    split
    · exact hp
    next i hl =>
      split
      next hc => exact hp.regain (Play.mem_of_locate hl) hc
      next => exact hp
  | resetTurn inScene =>
    have hp : p.Tallied := h.resolve_left (by simp [starts])
    obtain rfl : inScene = true := he
    exact Play.Tallied.resetTurn hp.inPlace
  | trigger on source? => exact h.resolve_left (by simp [starts])
  | supply scene chance =>
    have hp : p.Tallied := h.resolve_left (by simp [starts])
    obtain ⟨hused, hcount⟩ : scene.used = p.scene.used ∧ scene.usedCount = p.scene.usedCount := by
      simpa [Event.inScene] using he
    exact hp.congr ((books_kept rfl).inPlace hp.inPlace) rfl hused hcount

theorem tallied_play (hb : m.breaksOff p = false) (he : (Event.mk p m).inScene = true)
    (h : m.starts p = true ∨ p.Tallied) : (m.play p).state.Tallied := by
  rw [play_eq]
  exact Outcome.andThen_keeps (tallied_books hb he h) fun due q hq => hq.settle due

end Move

/-- A run in one scene that begins with a roll of the hand is tallied, unless its last roll was
broken off. -/
theorem Play.tallied_after {p : Play σ} {dice : List DieId} {ms : List (Move σ)}
    (hs : (Move.rollHand dice).starts p = true)
    (he : ∀ e ∈ p.history (.rollHand dice :: ms), e.inScene = true)
    (hw : whole (p.history (.rollHand dice :: ms)) = true) :
    (p.after (.rollHand dice :: ms)).Tallied := by
  induction ms using List.reverseRecOn with
  | nil =>
    obtain ⟨hb, -⟩ := (whole_append [] ⟨p, .rollHand dice⟩).mp hw
    exact Move.tallied_play hb rfl (.inl hs)
  | append_singleton ms m ih =>
    rw [← List.cons_append] at he hw ⊢
    rw [history_append] at he hw
    obtain ⟨hb, hstart⟩ := (whole_append _ _).mp hw
    have hm : (Event.mk (p.after (.rollHand dice :: ms)) m).inScene = true := he _ (by simp)
    rw [after_append]
    exact Move.tallied_play hb hm
      (hstart.imp_right fun h => ih (fun e hmem => he e (List.mem_append_left _ hmem)) h)

/-- In a run in one scene that begins with a roll of the hand, and whose last roll was not broken
off, the marked slots are those of the consumed dice and their count is the number of these. So the
conditions on used dice speak of the consumed dice, and restoring one takes one off the count. -/
theorem scene_tallies_consumed_dice {p : Play σ} {dice : List DieId} {ms : List (Move σ)}
    (hs : (Move.rollHand dice).starts p = true)
    (he : ∀ e ∈ p.history (.rollHand dice :: ms), e.inScene = true)
    (hw : whole (p.history (.rollHand dice :: ms)) = true) :
    let q := p.after (.rollHand dice :: ms)
    (∀ s, s ∈ q.scene.used ↔ s ∈ q.consumedDice.map (·.slot)) ∧
      q.scene.usedCount = q.consumedDice.length ∧
      (∀ (c : Condition) (v : View), v.scene = q.scene → c.kind = .perUsedDie →
        c.evaluate v = (toDouble q.consumedDice.length).map fun x =>
          { blocked := c.invert, multiplier := x }) ∧
      (∀ (c : Condition) (v : View), v.scene = q.scene → c.kind = .minDiceUsed →
        c.evaluate v =
          .ok { blocked := xor (!atLeast q.consumedDice.length c.threshold) c.invert }) ∧
      ∀ (ref : DieRef) (i : DieId), q.locate ref = .ok i → (q.dieOf i).consumed = true →
        (q.restore ref true).state.scene.usedCount = q.scene.usedCount - 1 := by
  intro q
  have hq : q.Tallied := Play.tallied_after hs he hw
  exact ⟨hq.mem_used_iff, hq.usedCount_eq, fun c v hv hk => hq.evaluate_perUsedDie hv hk,
    fun c v hv hk => hq.evaluate_minDiceUsed hv hk, fun ref i hl hc => hq.usedCount_restore hl hc⟩

/-- A run through failing dispatches, a restoration and a refused roll, with one of three dice
consumed at its end. -/
theorem scene_tallies_consumed_dice_through_failures :
    let drain : Affix :=
      { name := "Drain", trigger := .onUse, selector := .all
        effect := { kind := .flatBonus, value := 0 / 0 } }
    let p : Play Script :=
      { tray := { cells := [(0, { inherent := [drain] }), (1, {})], next := 2 }
        hand := { maxSize := 3 }, scene := { used := [7], usedCount := 1 }
        chance := { draws := [0.5] } }
    let ms : List (Move Script) :=
      [.consume (.slot 0), .consume (.slot 2), .restore (.slot 0) true, .consume (.slot 5),
        .reroll (.slot 1), .rollHand [0, 1, 0, 1]]
    (∀ s, s ∈ (p.after (.rollHand [0, 1, 0] :: ms)).scene.used ↔
        s ∈ (p.after (.rollHand [0, 1, 0] :: ms)).consumedDice.map (·.slot)) ∧
      (p.after (.rollHand [0, 1, 0] :: ms)).consumedDice.length = 1 ∧
      ∀ v : View, v.scene = (p.after (.rollHand [0, 1, 0] :: ms)).scene →
        Condition.evaluate { kind := .minDiceUsed, threshold := 1 } v = .ok .passed := by
  intro drain p ms
  have hs : (Move.rollHand [0, 1, 0]).starts p = true := by decide +kernel
  have hw : whole (p.history (.rollHand [0, 1, 0] :: ms)) = true := by decide +kernel
  have he : ∀ e ∈ p.history (.rollHand [0, 1, 0] :: ms), e.inScene = true := by decide +kernel
  have hone : (p.after (.rollHand [0, 1, 0] :: ms)).consumedDice.length = 1 := by decide +kernel
  have hreached : atLeast (1 : Nat) 1 = true := by decide +kernel
  have hpassed : Verdict.passed = { blocked := xor (!atLeast (1 : Nat) 1) false } := by
    rw [hreached]
    rfl
  obtain ⟨hused, -, -, hleast, -⟩ := scene_tallies_consumed_dice hs he hw
  refine ⟨hused, hone, fun v hv => ?_⟩
  rw [hpassed, ← hone]
  exact hleast _ v hv rfl

/-- A draw that is no number breaks off a roll past its checks: the slot used with the hand before
stays marked, though no die of the new hand is consumed. -/
theorem broken_off_roll_leaves_mark :
    let p : Play Script :=
      { tray := { cells := [(0, {}), (1, {})], next := 2 }, hand := {}, scene := {}
        chance := { draws := [0.5, 0.5, 0 / 0] } }
    let ms : List (Move Script) := [.consume (.slot 0), .rollHand [0, 1]]
    let q := p.after (.rollHand [0, 1] :: ms)
    (Move.rollHand [0, 1]).starts p = true ∧
      (∀ e ∈ p.history (.rollHand [0, 1] :: ms), e.inScene = true) ∧
      ¬ (∀ s, s ∈ q.scene.used ↔ s ∈ q.consumedDice.map (·.slot)) ∧
      q.scene.usedCount ≠ q.consumedDice.length := by
  intro p ms q
  refine ⟨by decide +kernel, by decide +kernel, fun h => ?_, by decide +kernel⟩
  have hnone : (0 : Int) ∉ q.consumedDice.map (·.slot) := by decide +kernel
  exact hnone ((h 0).mp (by decide +kernel))

end AffixRules
