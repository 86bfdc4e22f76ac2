import AffixRules.Proofs.Dispatch.Balance
import AffixRules.Proofs.Hand.InPlace

/-! The ledger of a run. What the reports of a run show for a slot since its die was last rolled is
what the working value of the die differs from its face by. -/
namespace AffixRules

variable {σ : Type} [Generator σ]

/-- The source of chance gives no number outside of the bounds that it is asked for. -/
def Generator.Within (σ : Type) [Generator σ] : Prop :=
  ∀ (low high n : Int) (g : σ), low ≤ high →
    (Generator.between low high g).answer = .ok n → low ≤ n ∧ n ≤ high

/-- A die of the hand, or one that is in no slot of the hand. -/
def Play.Sole (p : Play σ) (i : DieId) : Prop :=
  i ∈ p.hand.dice ∨ ∀ j ∈ p.hand.dice, (p.dieOf j).slot ≠ (p.dieOf i).slot

namespace Event

/-- A move that goes through, other than taking a hand as it is. -/
def smooth (e : Event σ) : Bool :=
  e.outcome.answer.isOk &&
    match e.move with
    | .setHand _ _ => false
    | _ => true

omit [Generator σ] in
/-- The source that the caller of a dispatch names. -/
def source? (e : Event σ) : Option DieId :=
  match e.move with
  | .trigger _ source? => source?
  | _ => none

omit [Generator σ] in
/-- Whether a move rolls the die of a slot: a consumed die is not rerolled. -/
def rolls (e : Event σ) (slot : Int) : Bool :=
  match e.move with
  | .rollHand _ => true
  | .reroll ref =>
    match e.before.locate ref with
    | .ok i => !(e.before.dieOf i).consumed && (e.before.dieOf i).slot = slot
    | .error _ => false
  | _ => false

/-- The change of a slot that a move reports. -/
def change (e : Event σ) (slot : Int) : Int :=
  match e.outcome.answer with
  | .ok a => a.change slot
  | .error _ => 0

end Event

/-- The changes of a slot reported since its die was last rolled, that roll's report included. -/
def reported (es : List (Event σ)) (slot : Int) : Int :=
  es.foldl (fun n e => (if e.rolls slot then 0 else n) + e.change slot) 0

namespace Play

omit [Generator σ]

/-- A hand in place, its faces on the dice, its working values off by what a ledger says. -/
structure Accounted (p : Play σ) (ledger : Int → Int) : Prop where
  inPlace : p.InPlace
  face : ∀ i ∈ p.hand.dice,
    Die.lowestFace ≤ (p.dieOf i).face ∧ (p.dieOf i).face ≤ (p.dieOf i).sides
  value : ∀ i ∈ p.hand.dice,
    (p.dieOf i).value = (p.dieOf i).face + ledger (p.dieOf i).slot

/-- In place, the die of a slot is alone in it, if the source of a dispatch is not there too. -/
theorem InPlace.gain_eq {p : Play σ} (hp : p.InPlace) {source? : Option DieId}
    (hs : ∀ s ∈ source?, p.Sole s) {i : DieId} (hi : i ∈ p.hand.dice) (u : Tray) :
    p.tray.gain u (p.hand.dice ++ source?.toList) (p.dieOf i).slot =
      (u.get i).value - (p.dieOf i).value := by
  have honly : ({j ∈ (p.hand.dice ++ source?.toList).toFinset |
      (p.tray.get j).slot = (p.dieOf i).slot} : Finset DieId) = {i} := by
    ext j
    simp only [Finset.mem_filter, List.mem_toFinset, List.mem_append, Option.mem_toList,
      Finset.mem_singleton]
    constructor
    · rintro ⟨hj | hj, hslot⟩
      · exact hp.eq_of_slot hj hi hslot
      · obtain hin | hout := hs j hj
        · exact hp.eq_of_slot hin hi hslot
        · exact absurd hslot.symm (hout i hi)
    · rintro rfl
      exact ⟨.inl hi, rfl⟩
  rw [Tray.gain, honly, Finset.sum_singleton]
  rfl

theorem Accounted.fire {p : Play σ} {ledger : Int → Int} (hp : p.Accounted ledger) {on : Trigger}
    {source? : Option DieId} (hs : ∀ s ∈ source?, p.Sole s) {r : Report}
    (h : (p.fire on source?).answer = .ok r) :
    (p.fire on source?).state.Accounted fun slot => ledger slot + r.change slot := by
  obtain ⟨hh, -, -, ho⟩ := p.fire_keeps on source?
  have hin : (p.fire on source?).state.InPlace :=
    hp.inPlace.congr hh (fun i => Die.slot_of_outline (ho i))
      (fun i => Die.consumed_of_outline (ho i))
  have hface : ∀ i, ((p.fire on source?).state.dieOf i).face = (p.dieOf i).face := fun i =>
    congrArg (·.face) (ho i)
  have hsides : ∀ i, ((p.fire on source?).state.dieOf i).sides = (p.dieOf i).sides := fun i =>
    congrArg (·.sides) (ho i)
  refine ⟨hin, fun i hi => ?_, fun i hi => ?_⟩
  · rw [hh] at hi
    rw [hface, hsides]
    exact hp.face i hi
  · rw [hh] at hi
    rw [Die.slot_of_outline (ho i), hface]
    have hgain := Stage.fire_gain ⟨p.scene, p.hand.dice⟩ h (p.dieOf i).slot
    have hone := hp.inPlace.gain_eq hs hi (p.fire on source?).state.tray
    have htotal : ((p.fire on source?).state.dieOf i).value - (p.dieOf i).value =
        r.change (p.dieOf i).slot := hone.symm.trans hgain
    have hvalue := hp.value i hi
    omega

end Play

theorem Die.lowestFace_le_sides (d : Die) : Die.lowestFace ≤ d.sides := by
  cases h : d.type <;> simp [Die.sides, Die.lowestFace, DieType.sides, h]

theorem Event.smooth_cases {m : Move σ} {p : Play σ} (h : (Event.mk p m).smooth = true) :
    ∃ due a, (m.books p).answer = .ok due ∧ (due.settle (m.books p).state).answer = .ok a ∧
      m.play p = due.settle (m.books p).state ∧ ∀ dice inScene, m ≠ .setHand dice inScene := by
  obtain ⟨hok, hmove⟩ := Bool.and_eq_true_iff.mp h
  cases hanswer : (m.play p).answer with
  | error e => simp [outcome, hanswer, Except.isOk, Except.toBool] at hok
  | ok a =>
    rw [Move.play_eq] at hanswer
    obtain ⟨due, hdue, hsettle, heq⟩ := Outcome.exists_of_andThen_ok hanswer
    refine ⟨due, a, hdue, hsettle, (m.play_eq p).trans heq, ?_⟩
    rintro dice inScene rfl
    cases hmove

namespace Play.Accounted

variable {p : Play σ} {ledger : Int → Int}

theorem deal (hg : Generator.Within σ) {dice : List DieId}
    (h : (p.deal dice).answer = .ok ()) :
    (p.deal dice).state.freshBooks.Accounted fun _ => 0 := by
  have hdealt : ∀ i ∈ (p.deal dice).state.hand.dice, ∃ k d,
      Die.Dealt σ k d ((p.deal dice).state.dieOf i) := by
    intro i hi
    obtain ⟨k, hk⟩ := List.mem_iff_getElem?.mp hi
    exact ⟨k, deal_ok h hk⟩
  refine ⟨inPlace_deal h, fun i hi => ?_, fun i hi => ?_⟩
  · obtain ⟨k, d, g, n, hn, hd⟩ := hdealt i hi
    change Die.lowestFace ≤ ((p.deal dice).state.dieOf i).face ∧
      ((p.deal dice).state.dieOf i).face ≤ ((p.deal dice).state.dieOf i).sides
    rw [hd]
    exact hg _ _ _ _ d.lowestFace_le_sides hn
  · obtain ⟨k, d, g, n, hn, hd⟩ := hdealt i hi
    change ((p.deal dice).state.dieOf i).value = ((p.deal dice).state.dieOf i).face + 0
    rw [hd]
    exact (Int.add_zero n).symm

omit [Generator σ] in
theorem showFace (hp : p.Accounted ledger) {i : DieId} (hi : i ∈ p.hand.dice) {n : Int}
    (hn : Die.lowestFace ≤ n ∧ n ≤ (p.dieOf i).sides) (chance : σ)
    (hin : (p.showFace i n chance).InPlace) :
    (p.showFace i n chance).Accounted fun slot =>
      if (p.dieOf i).slot = slot then 0 else ledger slot := by
  refine ⟨hin, fun j hj => ?_, fun j hj => ?_⟩
  · rw [dieOf_showFace]
    split
    next hij => exact hn
    next hij => exact hp.face j hj
  · rw [dieOf_showFace]
    split
    next hij => simp [Die.withFace]
    next hij =>
      have hslot : (p.dieOf i).slot ≠ (p.dieOf j).slot := fun he =>
        hij (hp.inPlace.eq_of_slot hi hj he)
      rw [if_neg hslot]
      exact hp.value j hj

/-- Books that keep the hand and roll no die keep the account. -/
theorem kept (hp : p.Accounted ledger) {m : Move σ} {q : Play σ} (h : m.Kept p q)
    (hm : ∀ ref, m ≠ .reroll ref) : q.Accounted ledger := by
  have hdie : ∀ j, ∃ consumed, q.dieOf j = { p.dieOf j with consumed } := fun j =>
    (h.die j).resolve_right fun ⟨ref, _, he, _⟩ => hm ref he
  refine ⟨h.inPlace hp.inPlace, fun j hj => ?_, fun j hj => ?_⟩
  · obtain ⟨c, hc⟩ := hdie j
    rw [hc]
    exact hp.face j (h.hand.1 ▸ hj)
  · obtain ⟨c, hc⟩ := hdie j
    rw [hc]
    exact hp.value j (h.hand.1 ▸ hj)

theorem books (hg : Generator.Within σ) {m : Move σ} {due : Due}
    (hp : (∃ dice, m = .rollHand dice) ∨ p.Accounted ledger)
    (hset : ∀ dice inScene, m ≠ .setHand dice inScene) (h : (m.books p).answer = .ok due) :
    (m.books p).state.Accounted fun slot =>
      if (Event.mk p m).rolls slot then 0 else ledger slot := by
  cases m with
  | rollHand dice =>
    obtain ⟨hdeal, -, hstate⟩ := Move.deal_of_books h
    rw [hstate]
    exact deal hg hdeal
  | setHand dice inScene => exact absurd rfl (hset dice inScene)
  | reroll ref =>
    have hp := hp.resolve_left (by simp)
    cases hl : p.locate ref with
    | error e =>
      simp only [Move.books, hl] at h
      cases h
    | ok i =>
      cases hc : (p.dieOf i).consumed with
      | true =>
        have hstate : ((Move.reroll ref).books p).state = p := by
          simp [Move.books, hl, hc, Outcome.done]
        simpa [hstate, Event.rolls, hl, hc] using hp
      | false =>
        obtain ⟨n, chance, hn, hstate⟩ := Move.books_reroll hl hc h
        have hin := (Move.books_kept (m := .reroll ref) (p := p) rfl).inPlace hp.inPlace
        rw [hstate] at hin ⊢
        simpa [Event.rolls, hl, hc] using hp.showFace (mem_of_locate hl)
          (hg _ _ _ _ (p.dieOf i).lowestFace_le_sides hn) chance hin
  | consume ref => exact (hp.resolve_left (by simp)).kept (Move.books_kept rfl) (by simp)
  | restore ref inScene => exact (hp.resolve_left (by simp)).kept (Move.books_kept rfl) (by simp)
  | resetTurn inScene => exact (hp.resolve_left (by simp)).kept (Move.books_kept rfl) (by simp)
  | trigger on source? => exact (hp.resolve_left (by simp)).kept (Move.books_kept rfl) (by simp)
  | supply scene chance => exact (hp.resolve_left (by simp)).kept (Move.books_kept rfl) (by simp)

/-- One smooth move adds its report to the ledger, where it rolls no die. -/
theorem play (hg : Generator.Within σ) {m : Move σ}
    (hp : (∃ dice, m = .rollHand dice) ∨ p.Accounted ledger)
    (hm : (Event.mk p m).smooth = true) (hsource : ∀ i ∈ (Event.mk p m).source?, p.Sole i) :
    (m.play p).state.Accounted fun slot =>
      (if (Event.mk p m).rolls slot then 0 else ledger slot) + (Event.mk p m).change slot := by
  obtain ⟨due, a, hbooks, hsettle, heq, hset⟩ := Event.smooth_cases hm
  have hq := books hg hp hset hbooks
  -- the books leave the ledger as it is, but for a die that they roll
  have hchange : ∀ slot, (Event.mk p m).change slot = a.change slot := by
    intro slot
    simp only [Event.change, Event.outcome, heq, hsettle]
  simp only [hchange, heq]
  cases due with
  | nothing =>
    cases hsettle
    simpa [Due.settle, Outcome.done, Answer.change, Report.change] using hq
  | restored was =>
    cases hsettle
    simpa [Due.settle, Outcome.done, Answer.change] using hq
  | dispatch on source? =>
    obtain ⟨r, hr, rfl⟩ := Outcome.exists_of_map_ok hsettle
    refine hq.fire (fun i hi => ?_) hr
    cases hi
    obtain rfl | hin := Move.source_of_books hbooks
    · exact hsource _ rfl
    · exact .inl (hin _ rfl)

end Play.Accounted

theorem reported_append (es : List (Event σ)) (e : Event σ) (slot : Int) :
    reported (es ++ [e]) slot = (if e.rolls slot then 0 else reported es slot) + e.change slot := by
  simp [reported]

/-- A smooth run from a roll of the hand is accounted for by its reports, if no die is told to act
from outside of the hand in a slot of the hand. -/
theorem Play.accounted_after (hg : Generator.Within σ) (p : Play σ) (dice : List DieId)
    (ms : List (Move σ)) (h : ∀ e ∈ p.history (.rollHand dice :: ms), e.smooth = true)
    (hsource : ∀ e ∈ p.history (.rollHand dice :: ms), ∀ i ∈ e.source?, e.before.Sole i) :
    (p.after (.rollHand dice :: ms)).Accounted (reported (p.history (.rollHand dice :: ms))) := by
  induction ms using List.reverseRecOn with
  | nil =>
    have hroll : (∃ d, Move.rollHand dice = (.rollHand d : Move σ)) ∨ p.Accounted fun _ => 0 :=
      .inl ⟨dice, rfl⟩
    exact Accounted.play hg hroll (h ⟨p, .rollHand dice⟩ (by simp [history])) nofun
  | append_singleton ms m ih =>
    -- the ledger of the moves before, with the report of the last one added
    rw [← List.cons_append] at h hsource ⊢
    rw [history_append] at h hsource ⊢
    have hms := ih (fun e he => h e (List.mem_append_left _ he))
      fun e he => hsource e (List.mem_append_left _ he)
    have hlast : (⟨p.after (.rollHand dice :: ms), m⟩ : Event σ) ∈
        p.history (.rollHand dice :: ms) ++ [⟨p.after (.rollHand dice :: ms), m⟩] := by simp
    have hplay := Accounted.play hg (.inr hms) (h _ hlast) (hsource _ hlast)
    rw [after_append, funext (reported_append _ _)]
    exact hplay

/-- Every write of a die is reported. Applying an affix, also one that fails on the way, the dice of
a slot gain what the report gains for the slot. Along a run in which no die from outside of the hand
acts in a slot of the hand, faces stay on their dice and a working value differs from its face by the
changes reported since the die was rolled. -/
theorem changes_account_for_values :
    (∀ (g : Stage) (source : DieId), source ∈ g.hand → ∀ (a : Affix) (b : Board) (slot : Int),
      b.tray.gain (g.applyAffix source a b).state.tray g.hand slot =
        (g.applyAffix source a b).state.report.change slot - b.report.change slot) ∧
    (Generator.Within σ → ∀ (p : Play σ) (dice : List DieId) (ms : List (Move σ)),
      (∀ e ∈ p.history (.rollHand dice :: ms), e.smooth = true) →
      (∀ e ∈ p.history (.rollHand dice :: ms), ∀ i ∈ e.source?,
        i ∈ e.before.hand.dice ∨
          ∀ j ∈ e.before.hand.dice, (e.before.dieOf j).slot ≠ (e.before.dieOf i).slot) →
      ∀ (k : Nat) (d : Die), (p.after (.rollHand dice :: ms)).dice[k]? = some d →
        d.slot = k ∧ 1 ≤ d.face ∧ d.face ≤ d.sides ∧
          d.value - d.face = reported (p.history (.rollHand dice :: ms)) k) := by
  refine ⟨fun g source hs a b slot => g.applyAffix_gain hs a b slot, ?_⟩
  intro hg p dice ms h hsource k d hd
  have hp := p.accounted_after hg dice ms h hsource
  obtain ⟨i, hi, rfl⟩ : ∃ i, (p.after (.rollHand dice :: ms)).hand.dice[k]? = some i ∧
      (p.after (.rollHand dice :: ms)).dieOf i = d := by
    simpa [Play.dice, Tray.dice, Play.dieOf] using hd
  have hmem := List.mem_of_getElem? hi
  have hslot := hp.inPlace.slot k i hi
  have hvalue := hp.value i hmem
  rw [hslot] at hvalue
  exact ⟨hslot, (hp.face i hmem).1, (hp.face i hmem).2, by omega⟩

/-- Faces that come up one after the other, the lowest for one that is out of bounds. -/
structure Faces where
  faces : List Int

instance : Generator Faces where
  fraction s := (0.5, s)
  between low high s :=
    match s.faces with
    | [] => .done low s
    | n :: rest => .done (if low ≤ n ∧ n ≤ high then n else low) ⟨rest⟩

theorem Faces.within : Generator.Within Faces := by
  intro low high n g hle h
  obtain ⟨_ | ⟨m, rest⟩⟩ := g
  · cases h
    exact ⟨le_refl low, hle⟩
  · simp only [Generator.between, Outcome.done, Except.ok.injEq] at h
    subst h
    split
    next hm => exact hm
    next hm => exact ⟨le_refl low, hle⟩

/-- An affix that fails after its first write, and a turn in which the die of a slot is lifted by
its own roll, by the use of its neighbor and by a source outside of the hand. -/
theorem changes_account_for_values_of_a_turn :
    let lift (on : Trigger) (selector : TargetSelector) : Affix :=
      { name := "Lift", trigger := on, selector, effect := { kind := .flatBonus, value := 2 } }
    let torn : Affix :=
      { lift .onUse .all with subEffects := [{ kind := .setMinimum, value := 0 / 0 }] }
    let g : Stage := ⟨{}, [0, 1]⟩
    let b : Board := { tray := { cells := [(0, { slot := 0 }), (1, { slot := 1 })], next := 2 } }
    let lifter (on : Trigger) (selector : TargetSelector) : Die :=
      { inherent := [lift on selector] }
    let p : Play Faces :=
      { tray :=
          { cells := [(0, lifter .onUse .right), (1, lifter .onRoll .self),
              (2, lifter .onTurnStart .all)]
            next := 3 }
        hand := {}, scene := {}, chance := ⟨[4, 6, 3]⟩ }
    let ms : List (Move Faces) :=
      [.rollHand [0, 1], .reroll (.slot 1), .consume (.slot 0), .trigger .onTurnStart (some 2)]
    ((g.applyAffix 0 torn b).answer.isOk = false ∧
      b.tray.gain (g.applyAffix 0 torn b).state.tray [0, 1] 1 = 2 ∧
      (g.applyAffix 0 torn b).state.report.change 1 = 2) ∧
    Generator.Within Faces ∧ (∀ e ∈ p.history ms, e.smooth = true) ∧
      (∀ e ∈ p.history ms, ∀ i ∈ e.source?,
        i ∈ e.before.hand.dice ∨
          ∀ j ∈ e.before.hand.dice, (e.before.dieOf j).slot ≠ (e.before.dieOf i).slot) ∧
      ∀ d, (p.after ms).dice[1]? = some d → d.face = 3 ∧ d.value = 9 := by
  intro lift torn g b lifter p ms
  have hsmooth : ∀ e ∈ p.history ms, e.smooth = true := by decide +kernel
  have hsource : ∀ e ∈ p.history ms, ∀ i ∈ e.source?,
      i ∈ e.before.hand.dice ∨
        ∀ j ∈ e.before.hand.dice, (e.before.dieOf j).slot ≠ (e.before.dieOf i).slot := by
    decide +kernel
  have hchange : (g.applyAffix 0 torn b).state.report.change 1 = 2 := by decide +kernel
  have hreport : b.report.change 1 = 0 := by decide +kernel
  have hreported : reported (p.history ms) 1 = 6 := by decide +kernel
  have hface : ∀ d ∈ (p.after ms).dice[1]?, d.face = 3 := by decide +kernel
  obtain ⟨hgain, hrun⟩ := changes_account_for_values (σ := Faces)
  refine ⟨⟨by decide +kernel, ?_, hchange⟩, Faces.within, hsmooth, hsource, fun d hd => ?_⟩
  · rw [hgain g 0 (by decide) torn b 1, hchange, hreport]
    rfl
  · have hvalue : d.value - d.face = reported (p.history ms) 1 :=
      (hrun Faces.within p [0, 1] _ hsmooth hsource 1 d hd).2.2.2
    have hthree := hface d hd
    exact ⟨hthree, by omega⟩

/-- A die from outside of the hand reports what it does to itself in the slot that it was given
elsewhere, which a die of the hand has too. And a die that fills two places of a hand, both in the
slot of the later one, gains in both what is reported once. -/
theorem foreign_and_repeated_dice_break_accounts :
    let lift : Affix :=
      { name := "Lift", trigger := .onTurnStart, effect := { kind := .flatBonus, value := 2 } }
    let p : Play Faces :=
      { tray := { cells := [(0, {}), (1, { slot := 0, inherent := [lift] })], next := 2 }
        hand := {}, scene := {}, chance := ⟨[4]⟩ }
    let ms : List (Move Faces) := [.rollHand [0], .trigger .onTurnStart (some 1)]
    let g : Stage := ⟨{}, [0, 0]⟩
    let b : Board := { tray := { cells := [(0, { slot := 1, value := 3 })], next := 1 } }
    let u : Board := (g.applyAffix 0 lift b).state
    (Generator.Within Faces ∧ (∀ e ∈ p.history ms, e.smooth = true) ∧
      (∃ d ∈ (p.after ms).dice[0]?, d.slot = 0 ∧ d.face = 4 ∧ d.value = 4) ∧
      reported (p.history ms) 0 = 2) ∧
    (g.applyAffix 0 lift b).answer.isOk = true ∧
      (b.tray.dice g.hand).map (fun d => (d.slot, d.value)) = [(1, 3), (1, 3)] ∧
      (u.tray.dice g.hand).map (fun d => (d.slot, d.value)) = [(1, 5), (1, 5)] ∧
      u.report.change 1 - b.report.change 1 = 2 := by
  intro lift p ms g b u
  have hdie : ∃ d ∈ (p.after ms).dice[0]?, d.slot = 0 ∧ d.face = 4 ∧ d.value = 4 := by
    decide +kernel
  refine ⟨⟨Faces.within, ?_, hdie, ?_⟩, ?_, ?_, ?_, ?_⟩ <;> decide +kernel

end AffixRules
