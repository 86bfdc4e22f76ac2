import AffixRules.Proofs.Hand.Books
import Mathlib.Data.List.Forall2
import Mathlib.Data.List.Induction

/-! Dice stay in place. Whatever fails in a run, a die lies in the slot of its place and the slots
that have fired are those of the consumed dice. Only a roll that its source of chance breaks off
leaves a hand behind that is placed in part. -/
namespace AffixRules

/-- Two states of a die with the same make, which neither play nor effects change. -/
structure Die.SameMake (d e : Die) : Prop where
  type : d.type = e.type
  inherent : d.inherent = e.inherent
  granted : d.granted = e.granted
  incomplete : d.incomplete = e.incomplete
  name : d.name = e.name

theorem Die.SameMake.trans {d e f : Die} (h : d.SameMake e) (k : e.SameMake f) : d.SameMake f where
  type := h.type.trans k.type
  inherent := h.inherent.trans k.inherent
  granted := h.granted.trans k.granted
  incomplete := h.incomplete.trans k.incomplete
  name := h.name.trans k.name

theorem Die.sameMake_of_outline {d e : Die} (h : e.outline = d.outline) : d.SameMake e where
  type := (congrArg (·.type) h).symm
  inherent := (congrArg (·.inherent) h).symm
  granted := (congrArg (·.granted) h).symm
  incomplete := (congrArg (·.incomplete) h).symm
  name := (congrArg (·.name) h).symm

variable {σ : Type} [Generator σ]

namespace Move

/-- A hand that is taken as it is names every die once. -/
def DistinctDice : Move σ → Prop
  | .setHand dice _ => dice.Nodup
  | _ => True

/-- Whether the source of chance fails in the middle of a roll of the hand. -/
def breaksOff (m : Move σ) (p : Play σ) : Bool :=
  match m with
  | .rollHand dice => m.starts p && !(p.deal dice).answer.isOk
  | _ => false

end Move

/-- Whether the hand is whole after a history: the last roll that began one was not broken off. -/
def whole (es : List (Event σ)) : Bool :=
  es.foldl (fun w e => !e.move.breaksOff e.before && (e.move.starts e.before || w)) true

theorem whole_append (es : List (Event σ)) (e : Event σ) :
    whole (es ++ [e]) = true ↔
      e.move.breaksOff e.before = false ∧ (e.move.starts e.before = true ∨ whole es = true) := by
  simp [whole]

namespace Play

omit [Generator σ]

structure InPlace (p : Play σ) : Prop where
  slot : ∀ (k : Nat) i, p.hand.dice[k]? = some i → (p.dieOf i).slot = k
  fired : ∀ s, s ∈ p.hand.fired ↔
    ∃ i ∈ p.hand.dice, (p.dieOf i).consumed = true ∧ (p.dieOf i).slot = s

/-- The hand has a limit and is within it. -/
def Fits (limit : Int) (p : Play σ) : Prop :=
  p.hand.maxSize = limit ∧ (p.hand.dice.length : Int) ≤ limit

namespace InPlace

variable {p q : Play σ}

theorem eq_of_slot (hp : p.InPlace) {i j : DieId} (hi : i ∈ p.hand.dice) (hj : j ∈ p.hand.dice)
    (h : (p.dieOf i).slot = (p.dieOf j).slot) : i = j := by
  obtain ⟨k, hk⟩ := List.mem_iff_getElem?.mp hi
  obtain ⟨l, hl⟩ := List.mem_iff_getElem?.mp hj
  rw [hp.slot k i hk, hp.slot l j hl] at h
  obtain rfl : k = l := by omega
  exact Option.some.inj (hk.symm.trans hl)

theorem congr (hp : p.InPlace) (hh : q.hand = p.hand)
    (hs : ∀ i, (q.dieOf i).slot = (p.dieOf i).slot)
    (hc : ∀ i, (q.dieOf i).consumed = (p.dieOf i).consumed) : q.InPlace where
  slot k i hi := by
    rw [hs]
    exact hp.slot k i (hh ▸ hi)
  fired s := by simp only [hh, hs, hc, hp.fired s]

theorem spend (hp : p.InPlace) {i : DieId} (hi : i ∈ p.hand.dice) : (p.spend i).InPlace where
  slot k j hj := by
    rw [(p.hand_spend i).1] at hj
    by_cases hij : i = j
    · subst hij
      simpa using hp.slot k i hj
    · simpa [hij] using hp.slot k j hj
  fired s := by
    rw [mem_fired_spend, hp.fired, (p.hand_spend i).1]
    constructor
    · rintro (⟨j, hj, hc, rfl⟩ | rfl)
      · exact ⟨j, hj, by by_cases hij : i = j <;> simp [hij, hc],
          by by_cases hij : i = j <;> simp [hij]⟩
      · exact ⟨i, hi, by simp, by simp⟩
    · rintro ⟨j, hj, hc, rfl⟩
      by_cases hij : i = j
      · subst hij
        exact .inr (by simp)
      · rw [dieOf_spend, if_neg hij] at hc ⊢
        exact .inl ⟨j, hj, hc, rfl⟩

theorem regain (hp : p.InPlace) {i : DieId} (hi : i ∈ p.hand.dice) (inScene : Bool) :
    (p.regain i inScene).InPlace where
  slot k j hj := by
    rw [hand_regain] at hj
    by_cases hij : i = j
    · subst hij
      simpa using hp.slot k i hj
    · simpa [hij] using hp.slot k j hj
  fired s := by
    simp only [hand_regain, List.mem_filter, decide_eq_true_eq, hp.fired]
    constructor
    · rintro ⟨⟨j, hj, hc, rfl⟩, hne⟩
      have hij : i ≠ j := fun he => hne (he ▸ rfl)
      exact ⟨j, hj, by simpa [hij] using hc, by simp [hij]⟩
    · rintro ⟨j, hj, hc, rfl⟩
      by_cases hij : i = j
      · -- the die itself is ready again
        subst hij
        simp at hc
      · rw [dieOf_regain, if_neg hij] at hc ⊢
        exact ⟨⟨j, hj, hc, rfl⟩, fun he => hij (hp.eq_of_slot hj hi he).symm⟩

theorem resetTurn (hp : p.InPlace) (inScene : Bool) : (p.resetTurn inScene).InPlace := by
  have hdice : (p.resetTurn inScene).hand.dice = p.hand.dice := by cases inScene <;> rfl
  have hfired : (p.resetTurn inScene).hand.fired = [] := by cases inScene <;> rfl
  constructor
  · intro k i hi
    rw [hdice] at hi
    rw [dieOf_resetTurn, if_pos (List.mem_of_getElem? hi)]
    exact hp.slot k i hi
  · intro s
    rw [hfired, hdice]
    constructor
    · intro hs
      cases hs
    · rintro ⟨i, hi, hc, -⟩
      rw [dieOf_resetTurn, if_pos hi] at hc
      cases hc

theorem take {dice : List DieId} (hn : dice.Nodup) (p : Play σ) (inScene : Bool) :
    (p.take dice inScene).InPlace := by
  have hdice : (p.take dice inScene).hand.dice = dice := by cases inScene <;> rfl
  have hdie : ∀ i, (p.take dice inScene).dieOf i = (placeAll p.tray dice).get i := by
    cases inScene <;> exact fun i => rfl
  have hfired : (p.take dice inScene).hand.fired =
      consumedSlots ((placeAll p.tray dice).dice dice) := by cases inScene <;> rfl
  constructor
  · intro k i hi
    rw [hdice] at hi
    rw [hdie, get_placeAll hn _ hi]
  · intro s
    simp [hfired, hdice, hdie, consumedSlots, Tray.dice, and_assoc]

theorem settle (hp : p.InPlace) (due : Due) : (due.settle p).state.InPlace := by
  obtain ⟨hh, ho⟩ := due.settle_keeps p
  exact hp.congr hh (fun i => Die.slot_of_outline (ho i)) (fun i => Die.consumed_of_outline (ho i))

end InPlace

end Play

/-- A deal that goes through leaves its hand in place, and nothing is used. -/
theorem Play.inPlace_deal {dice : List DieId} {p : Play σ} (h : (p.deal dice).answer = .ok ()) :
    (p.deal dice).state.freshBooks.InPlace := by
  constructor
  · intro k i hi
    obtain ⟨d, g, n, -, hdie⟩ := deal_ok h hi
    change ((p.deal dice).state.dieOf i).slot = k
    rw [hdie]
  · intro s
    constructor
    · intro hs
      cases hs
    · rintro ⟨i, hi, hc, -⟩
      obtain ⟨k, hk⟩ := List.mem_iff_getElem?.mp hi
      obtain ⟨d, g, n, -, hdie⟩ := deal_ok h hk
      change ((p.deal dice).state.dieOf i).consumed = true at hc
      rw [hdie] at hc
      cases hc

namespace Move

variable {m : Move σ} {p : Play σ}

theorem Kept.inPlace {q : Play σ} (h : m.Kept p q) (hp : p.InPlace) :
    q.InPlace := by
  cases h with
  | idle => exact hp
  | other scene chance => exact hp.congr rfl (fun _ => rfl) (fun _ => rfl)
  | @face ref i n hm hl hc hn chance =>
    have hd : ∀ j, ((p.showFace i n chance).dieOf j).slot = (p.dieOf j).slot ∧
        ((p.showFace i n chance).dieOf j).consumed = (p.dieOf j).consumed := by
      intro j
      rw [Play.dieOf_showFace]
      split
      next hj => subst hj; exact ⟨rfl, rfl⟩
      next => exact ⟨rfl, rfl⟩
    exact hp.congr rfl (fun j => (hd j).1) (fun j => (hd j).2)
  | spend hm hl hc hf => exact hp.spend (Play.mem_of_locate hl)
  | regain hm hl hc => exact hp.regain (Play.mem_of_locate hl) _
  | reset hm => exact hp.resetTurn _

theorem Kept.sameMake {q : Play σ} (h : m.Kept p q) (j : DieId) :
    (p.dieOf j).SameMake (q.dieOf j) := by
  obtain ⟨consumed, hd⟩ | ⟨ref, n, -, -, hd⟩ := h.die j <;> rw [hd] <;>
    exact ⟨rfl, rfl, rfl, rfl, rfl⟩

theorem deal_of_not_breaksOff {dice : List DieId} (hs : (Move.rollHand dice).starts p = true)
    (hb : (Move.rollHand dice).breaksOff p = false) : (p.deal dice).answer = .ok () := by
  cases ha : (p.deal dice).answer with
  | ok u => rfl
  | error e => simp [breaksOff, hs, ha, Except.isOk, Except.toBool] at hb

theorem inPlace_books (hb : m.breaksOff p = false) (hd : m.DistinctDice)
    (h : m.starts p = true ∨ p.InPlace) : (m.books p).state.InPlace := by
  cases hs : m.starts p with
  | false =>
    have hp : p.InPlace := h.resolve_left (by simp [hs])
    exact (books_kept hs).inPlace hp
  | true =>
    cases m with
    | rollHand dice =>
      have hok := deal_of_not_breaksOff hs hb
      rw [books_rollHand hs, Outcome.andThen, hok]
      exact Play.inPlace_deal hok
    | setHand dice inScene =>
      rw [books_setHand hs]
      exact Play.InPlace.take hd p inScene
    | _ => cases hs

theorem inPlace_play (hb : m.breaksOff p = false) (hd : m.DistinctDice)
    (h : m.starts p = true ∨ p.InPlace) : (m.play p).state.InPlace := by
  rw [play_eq]
  exact Outcome.andThen_keeps (inPlace_books hb hd h) fun due q hq => hq.settle due

theorem books_fits {limit : Int} (hp : p.Fits limit) (m : Move σ) :
    (m.books p).state.Fits limit := by
  cases hs : m.starts p with
  | false =>
    obtain ⟨hdice, hmax⟩ := (books_kept hs).hand
    rw [Play.Fits, hdice, hmax]
    exact hp
  | true =>
    cases m with
    | rollHand dice =>
      have hfit : (dice.length : Int) ≤ p.hand.maxSize := by
        simp only [starts, Bool.and_eq_true, decide_eq_true_eq] at hs
        exact hs.2
      obtain ⟨hlength, hmax⟩ := p.deal_books dice
      have hdeal : (p.deal dice).state.Fits limit := by
        rw [Play.Fits, hlength, hmax]
        exact ⟨hp.1, hp.1 ▸ hfit⟩
      rw [books_rollHand hs]
      exact Outcome.andThen_keeps (p := Play.Fits limit) hdeal fun _ _ hq => hq
    | setHand dice inScene =>
      have hfit : (dice.length : Int) ≤ p.hand.maxSize := of_decide_eq_true hs
      rw [books_setHand hs]
      cases inScene <;> exact ⟨hp.1, hp.1 ▸ hfit⟩
    | _ => cases hs

theorem play_fits {limit : Int} (hp : p.Fits limit) (m : Move σ) :
    (m.play p).state.Fits limit := by
  rw [play_eq]
  refine Outcome.andThen_keeps (p := Play.Fits limit) (books_fits hp m) fun due q hq => ?_
  rw [Play.Fits, (due.settle_keeps q).1]
  exact hq

/-- Play that begins no new hand keeps the dice in hand and what they are made of. -/
theorem play_sameMake (hs : m.starts p = false) :
    List.Forall₂ Die.SameMake p.dice (m.play p).state.dice := by
  have hkept : (m.play p).state.hand.dice = p.hand.dice ∧
      ∀ i, (p.dieOf i).SameMake ((m.play p).state.dieOf i) := by
    rw [play_eq]
    refine Outcome.andThen_keeps (p := fun q : Play σ => q.hand.dice = p.hand.dice ∧
      ∀ i, (p.dieOf i).SameMake (q.dieOf i))
      ⟨(books_kept hs).hand.1, (books_kept hs).sameMake⟩ fun due q hq => ?_
    obtain ⟨hh, ho⟩ := due.settle_keeps q
    rw [hh]
    exact ⟨hq.1, fun i => (hq.2 i).trans (Die.sameMake_of_outline (ho i))⟩
  simp only [Play.dice, Tray.dice, hkept.1, List.forall₂_map_left_iff, List.forall₂_map_right_iff,
    List.forall₂_same]
  exact fun i _ => hkept.2 i

end Move

namespace Play

theorem fits_after {limit : Int} {p : Play σ} (hp : p.Fits limit) (ms : List (Move σ)) :
    (p.after ms).Fits limit := by
  induction ms using List.reverseRecOn with
  | nil => exact hp
  | append_singleton ms m ih =>
    rw [after_append]
    exact Move.play_fits ih m

/-- A run whose last roll was not broken off has its hand in place. -/
theorem inPlace_after {p : Play σ} (hp : p.InPlace) {ms : List (Move σ)}
    (hd : ∀ m ∈ ms, m.DistinctDice) (hw : whole (p.history ms) = true) :
    (p.after ms).InPlace := by
  induction ms using List.reverseRecOn with
  | nil => exact hp
  | append_singleton ms m ih =>
    rw [history_append, whole_append] at hw
    obtain ⟨hb, hs⟩ := hw
    rw [after_append]
    -- a move that begins a hand needs nothing of the run before it
    refine m.inPlace_play hb (hd m (by simp)) (hs.imp_right fun h => ?_)
    exact ih (fun n hn => hd n (by simp [hn])) h

omit [Generator σ] in
theorem length_ready_add_consumed (p : Play σ) :
    p.readyDice.length + p.consumedDice.length = p.dice.length := by
  have h := p.dice.length_eq_length_filter_add fun d => d.consumed
  simp only [readyDice, consumedDice]
  omega

end Play

/-- Every run from an empty hand: the hand stays within its limit, its dice are the ready and the
consumed ones, and only a new hand changes what the dice are made of. Dice and fired slots are in
place unless the last roll of the hand was broken off. -/
theorem run_stays_in_place {p : Play σ} (hdice : p.hand.dice = []) (hfired : p.hand.fired = [])
    (hmax : 0 ≤ p.hand.maxSize) {ms : List (Move σ)} (hd : ∀ m ∈ ms, m.DistinctDice) :
    ((p.after ms).dice.length : Int) ≤ p.hand.maxSize ∧
      (p.after ms).readyDice.length + (p.after ms).consumedDice.length =
        (p.after ms).dice.length ∧
      (whole (p.history ms) = true → (p.after ms).InPlace) ∧
      ∀ m : Move σ, m.starts (p.after ms) = false →
        List.Forall₂ Die.SameMake (p.after ms).dice (m.play (p.after ms)).state.dice := by
  have hp : p.InPlace := by
    constructor
    · intro k i hi
      simp [hdice] at hi
    · simp [hfired, hdice]
  have hfit : ((p.after ms).hand.dice.length : Int) ≤ p.hand.maxSize :=
    (Play.fits_after ⟨rfl, by simpa [hdice] using hmax⟩ ms).2
  refine ⟨?_, (p.after ms).length_ready_add_consumed, Play.inPlace_after hp hd, ?_⟩
  · simpa [Play.dice, Tray.dice] using hfit
  · exact fun m hm => Move.play_sameMake hm

/-- A run through a bad slot, an oversized hand, a restoration and a dispatch that fails. -/
theorem run_stays_in_place_through_failures :
    let drain : Affix :=
      { name := "Drain", trigger := .onUse, selector := .all
        effect := { kind := .flatBonus, value := 0 / 0 } }
    let p : Play Script :=
      { tray := { cells := [(0, { inherent := [drain] }), (1, {})], next := 2 }
        hand := { maxSize := 2 }, scene := {}, chance := { draws := [0.5] } }
    let ms : List (Move Script) :=
      [.rollHand [0, 1], .consume (.slot 1), .consume (.slot 7), .rollHand [0, 1, 0],
        .restore (.slot 1) true, .consume (.slot 0)]
    whole (p.history ms) = true ∧ (p.after ms).InPlace := by
  intro drain p ms
  have hw : whole (p.history ms) = true := by decide +kernel
  have hd : ∀ m ∈ ms, m.DistinctDice := by simp [ms, Move.DistinctDice]
  exact ⟨hw, (run_stays_in_place rfl rfl (by decide) hd).2.2.1 hw⟩

/-- A draw that is no number breaks a roll off between the first and the second die. -/
theorem broken_off_roll_not_in_place :
    let p : Play Script :=
      { tray := { cells := [(0, {}), (1, {})], next := 2 }, hand := {}, scene := {}
        chance := { draws := [0 / 0] } }
    p.hand.dice = [] ∧ p.hand.fired = [] ∧ 0 ≤ p.hand.maxSize ∧
      (Move.rollHand [0, 1] : Move Script).DistinctDice ∧
      ¬ (p.after [.rollHand [0, 1]]).InPlace := by
  intro p
  refine ⟨rfl, rfl, by decide, trivial, fun h => ?_⟩
  have hslot : ((p.after [.rollHand [0, 1]]).dieOf 3).slot = 1 := h.slot 1 3 (by decide +kernel)
  revert hslot
  decide +kernel

end AffixRules
