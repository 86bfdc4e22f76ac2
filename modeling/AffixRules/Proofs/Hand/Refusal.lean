import AffixRules.Proofs.Affix.Reroll
import AffixRules.Proofs.Dispatch.Completion
import AffixRules.Proofs.Hand.Tally

/-! Refusals. A step that refuses its arguments changes nothing. A step that takes them has its
books complete before it dispatches, so they stand also where an affix breaks the dispatch off, and
nothing else can make it fail. -/
namespace AffixRules

namespace Stage

/-- How the affixes of a dispatch break it off: one of a die that fires cannot be found, or one that
is called fails. -/
inductive BreaksOff (g : Stage) (trigger : Trigger) (source? : Option DieId) (t : Tray)
    (e : Failure) : Prop
  | unknown {i : DieId} (hi : i ∈ g.sources source? t) (he : (t.get i).affixesOn trigger = .error e)
  | affix {i : DieId} {a : Affix} {b : Board} (hcalls : g.Calls trigger source? t i a b)
    (he : (g.applyAffix i a b).answer = .error e)

variable {g : Stage} {trigger : Trigger} {source? : Option DieId} {t : Tray}

open Outcome

theorem breaksOff_of_fire {e : Failure} (h : (g.fire trigger source? t).answer = .error e) :
    g.BreaksOff trigger source? t e := by
  have hall : (forEach (g.fireDie trigger) (g.sources source? t) { tray := t }).Obeys
      (fun _ => True) fun e _ => g.BreaksOff trigger source? t e := by
    refine obeys_forEach (fun before i after hs c _ hbefore => ?_) trivial
    have hkept : (t.get i).affixesOn trigger = (c.tray.get i).affixesOn trigger :=
      Die.affixesOn_of_outline (outline_eq_of_fireDie hbefore i).symm trigger
    unfold fireDie
    cases has : (c.tray.get i).affixesOn trigger with
    | error e => exact obeys_failed trivial (.unknown (by simp [hs]) (hkept.trans has))
    | ok as =>
      refine obeys_forEach (fun done a rest ha b _ hdone => ⟨trivial, ?_⟩) trivial
      have hcalls : g.Calls trigger source? t i a b :=
        .intro hs hbefore (ha ▸ hkept.trans has) hdone
      cases he : (g.applyAffix i a b).answer with
      | ok u => exact .inl ⟨u, rfl⟩
      | error e => exact .inr ⟨e, rfl, .affix hcalls he⟩
  unfold fire at h
  obtain ⟨-, ⟨u, hu⟩ | ⟨d, hd, hbreaks⟩⟩ := hall
  · simp [hu, Except.map] at h
  · obtain rfl : d = e := by simpa [hd, Except.map] using h
    exact hbreaks

end Stage

variable {σ : Type}

theorem Scene.mem_used_markUsed (s : Scene) (slot : Int) : slot ∈ (s.markUsed slot).used := by
  unfold markUsed
  split
  next h => simpa [isUsed] using h
  next => simp

/-- The reference is to a place of the hand or to one of its dice. -/
def DieRef.Within (p : Play σ) : DieRef → Prop
  | .slot k => 0 ≤ k ∧ k < p.hand.dice.length
  | .die i => i ∈ p.hand.dice

/-- Why a reference is refused that is not within the hand. -/
def DieRef.refusal (p : Play σ) : DieRef → Failure
  | .slot k => .slotOutOfRange k p.hand.dice.length
  | .die i => .foreignDie (p.dieOf i).shown

namespace Play

variable {p q r : Play σ} {ref : DieRef} {i : DieId} {n : Int}

theorem locate_of_not_within (h : ¬ ref.Within p) : p.locate ref = .error (ref.refusal p) := by
  cases ref with
  | die i => exact if_neg h
  | slot k =>
    have hnone : (if k < 0 then none else p.hand.dice[k.toNat]?) = none := by
      split
      · rfl
      · simp only [DieRef.Within] at h
        exact List.getElem?_eq_none (by omega)
    simp only [locate, hnone, DieRef.refusal]

theorem locate_of_within (h : ref.Within p) : ∃ i ∈ p.hand.dice, p.locate ref = .ok i := by
  cases ref with
  | die i => exact ⟨i, h, if_pos h⟩
  | slot k =>
    obtain ⟨hk, hlt⟩ := h
    have hn : k.toNat < p.hand.dice.length := by omega
    exact ⟨p.hand.dice[k.toNat], List.getElem_mem hn, by simp [locate, Int.not_lt.mpr hk, hn]⟩

/-- The slots of the dice are places of the hand. -/
def Slotted (p : Play σ) : Prop :=
  ∀ i ∈ p.hand.dice, 0 ≤ (p.dieOf i).slot ∧ (p.dieOf i).slot < p.hand.dice.length

theorem neighbors_of_slotted (hp : p.Slotted) (h : ref.Within p) :
    ∃ beside, p.neighbors ref = .ok beside := by
  obtain ⟨i, hi, hl⟩ := locate_of_within h
  obtain ⟨h0, hlt⟩ := hp i hi
  have hlength : p.dice.length = p.hand.dice.length := List.length_map _
  have hplace (slot : Int) {c : Prop} (hc : c → 0 ≤ slot ∧ slot < p.dice.length) :
      ∃ d, c → placeIn p.dice slot = .ok d := by
    by_cases h : c
    · obtain ⟨hlow, hhigh⟩ := hc h
      have hn : slot.toNat < p.dice.length := by omega
      exact ⟨p.dice[slot.toNat], fun _ => by simp [placeIn, Int.not_lt.mpr hlow, hn]⟩
    · exact ⟨default, fun h' => absurd h' h⟩
  have hbefore : 0 < (p.dieOf i).slot →
      0 ≤ (p.dieOf i).slot - 1 ∧ (p.dieOf i).slot - 1 < p.dice.length := by omega
  have hafter : (p.dieOf i).slot + 1 < p.dice.length →
      0 ≤ (p.dieOf i).slot + 1 ∧ (p.dieOf i).slot + 1 < p.dice.length := by omega
  obtain ⟨left, hleft⟩ := hplace _ hbefore
  obtain ⟨right, hright⟩ := hplace _ hafter
  by_cases hl0 : 0 < (p.dieOf i).slot <;> by_cases hr0 : (p.dieOf i).slot + 1 < p.dice.length <;>
    simp [neighbors, bind, Except.bind, pure, Except.pure, Except.map, hl, hl0, hr0, hleft, hright]

/-- The slots that are written count the places from a start. -/
theorem get_placeAll_from (dice : List DieId) (start : Nat) (t : Tray) (j : DieId) :
    let u := (dice.zipIdx start).foldl (fun t (i, k) => t.modify i fun d => { d with slot := k }) t
    (j ∈ dice → ∃ k : Nat, (u.get j).slot = k ∧ start ≤ k ∧ k < start + dice.length) ∧
      (j ∉ dice → u.get j = t.get j) := by
  induction dice generalizing start t with
  | nil => exact ⟨nofun, fun _ => rfl⟩
  | cons i dice ih =>
    intro u
    obtain ⟨hwritten, hkept⟩ := ih (start + 1) (t.modify i fun d => { d with slot := start })
    by_cases hj : j ∈ dice
    · refine ⟨fun _ => ?_, fun h => absurd (List.mem_cons_of_mem i hj) h⟩
      obtain ⟨k, hk, hlow, hhigh⟩ := hwritten hj
      exact ⟨k, hk, by omega, by rw [List.length_cons]; omega⟩
    · -- no later place writes the die
      have hu : u.get j = (t.modify i fun d => { d with slot := start }).get j := hkept hj
      rw [hu, Store.get_modify]
      refine ⟨fun h => ?_, fun h => ?_⟩
      · obtain rfl : j = i := (List.mem_cons.mp h).resolve_right hj
        exact ⟨start, by simp, by omega, by rw [List.length_cons]; omega⟩
      · have hne : i ≠ j := fun he => h (he ▸ List.mem_cons_self)
        rw [if_neg hne]

theorem slotted_take (p : Play σ) (dice : List DieId) (inScene : Bool) :
    (p.take dice inScene).Slotted := by
  have hdice : (p.take dice inScene).hand.dice = dice := by cases inScene <;> rfl
  have hdie : ∀ i, (p.take dice inScene).dieOf i = (placeAll p.tray dice).get i := by
    cases inScene <;> exact fun i => rfl
  intro i hi
  rw [hdice] at hi
  obtain ⟨k, hk, -, hlt⟩ := (get_placeAll_from dice 0 p.tray i).1 hi
  rw [hdice, hdie, placeAll, hk]
  omega

theorem Slotted.congr (hp : p.Slotted) (hdice : q.hand.dice = p.hand.dice)
    (hslot : ∀ i, (q.dieOf i).slot = (p.dieOf i).slot) : q.Slotted := by
  intro i hi
  rw [hdice] at hi ⊢
  rw [hslot]
  exact hp i hi

/-- A die of the hand has been used: it is consumed, and its slot has fired and is marked. -/
structure Used (p : Play σ) (i : DieId) (q : Play σ) : Prop where
  dice : q.hand.dice = p.hand.dice
  consumed : (q.dieOf i).consumed = true
  fired : (p.dieOf i).slot ∈ q.hand.fired
  marked : (p.dieOf i).slot ∈ q.scene.used
  scene : q.scene = p.scene.markUsed (p.dieOf i).slot
  chance : q.chance = p.chance

/-- A die of the hand shows a new face. -/
structure Rerolled (p : Play σ) (i : DieId) (n : Int) (q : Play σ) : Prop where
  hand : q.hand = p.hand
  scene : q.scene = p.scene
  consumed : (q.dieOf i).consumed = (p.dieOf i).consumed
  face : (q.dieOf i).face = n

/-- Two plays that differ at most in what effects write on dice. -/
structure SameBooks (q r : Play σ) : Prop where
  hand : r.hand = q.hand
  scene : r.scene = q.scene
  chance : r.chance = q.chance
  outline : ∀ i, (r.dieOf i).outline = (q.dieOf i).outline

/-- The outcome is that of a dispatch after books, which stand whatever comes of the dispatch; only
an affix can break it off. -/
structure Settles (books : Play σ → Prop) (on : Trigger) (source? : Option DieId)
    (o : Outcome (Play σ) Report) : Prop where
  dispatch : ∃ q, books q ∧ o = q.fire on source? ∧ ∀ e, o.answer = .error e →
    (Stage.mk q.scene q.hand.dice).BreaksOff on source? q.tray e
  stands : books o.state
  shown : o.state.shownHand = o.state.hand.dice

theorem settles_fire {books : Play σ → Prop} (hq : books q)
    (hbooks : ∀ r, q.SameBooks r → books r) (on : Trigger) (source? : Option DieId) :
    Settles books on source? (q.fire on source?) where
  dispatch := by
    refine ⟨q, hq, rfl, fun e he => Stage.breaksOff_of_fire ?_⟩
    exact he
  stands := by
    obtain ⟨hand, scene, chance, outline⟩ := q.fire_keeps on source?
    exact hbooks _ ⟨hand, scene, chance, outline⟩
  shown := rfl

theorem Used.congr (h : p.Used i q) (hr : q.SameBooks r) : p.Used i r where
  dice := by rw [hr.hand, h.dice]
  consumed := (Die.consumed_of_outline (hr.outline i)).trans h.consumed
  fired := hr.hand ▸ h.fired
  marked := hr.scene ▸ h.marked
  scene := hr.scene.trans h.scene
  chance := hr.chance.trans h.chance

theorem Rerolled.congr (h : p.Rerolled i n q) (hr : q.SameBooks r) : p.Rerolled i n r where
  hand := hr.hand.trans h.hand
  scene := hr.scene.trans h.scene
  consumed := (Die.consumed_of_outline (hr.outline i)).trans h.consumed
  face := by
    rw [Die.eq_of_outline (hr.outline i)]
    exact h.face

theorem used_spend (p : Play σ) (i : DieId) : p.Used i (p.spend i) where
  dice := (p.hand_spend i).1
  consumed := by simp
  fired := (p.mem_fired_spend i _).mpr (.inr rfl)
  marked := by
    rw [scene_spend]
    exact p.scene.mem_used_markUsed _
  scene := p.scene_spend i
  chance := by
    unfold spend markFired
    dsimp only
    split <;> rfl

theorem rerolled_showFace (p : Play σ) (i : DieId) (n : Int) (chance : σ) :
    p.Rerolled i n (p.showFace i n chance) where
  hand := rfl
  scene := rfl
  consumed := by simp [Die.withFace]
  face := by simp [Die.withFace]

theorem settles_consume (hl : p.locate ref = .ok i) (hc : (p.dieOf i).consumed = false)
    (hf : (p.dieOf i).slot ∉ p.hand.fired) :
    Settles (p.Used i) .onUse (some i) (p.consume ref) := by
  have hconsume : p.consume ref = (p.spend i).fire .onUse (some i) := by
    simp [consume, hl, hc, hf, spend]
  rw [hconsume]
  exact settles_fire (p.used_spend i) (fun r hr => (p.used_spend i).congr hr) _ _

theorem restore_of_locate (hl : p.locate ref = .ok i) (inScene : Bool) :
    p.restore ref inScene =
      if (p.dieOf i).consumed then .done true (p.regain i inScene) else .done false p := by
  simp only [restore, hl]
  rfl

end Play

variable [Generator σ]

namespace Generator

/-- What draws of faces can leave of a source of chance. -/
inductive Drawn (g : σ) : σ → Prop
  | start : Drawn g g
  | draw {h : σ} (hd : Drawn g h) (d : Die) : Drawn g (between Die.lowestFace d.sides h).state

/-- No draw of a face fails, however many were made before it. -/
def Reliable (g : σ) : Prop :=
  ∀ h, Drawn g h → ∀ d : Die, ∃ n, (between Die.lowestFace d.sides h).answer = .ok n

theorem InBounds.reliable (hσ : InBounds σ) (g : σ) : Reliable g := by
  intro h _ d
  have hsides : Die.lowestFace ≤ d.sides := by
    simp only [Die.sides]
    cases d.type <;> decide
  obtain ⟨n, hn, -⟩ := hσ Die.lowestFace d.sides h hsides
  exact ⟨n, hn⟩

end Generator

namespace Play

variable {p q r : Play σ} {dice : List DieId} {ref : DieRef} {i : DieId} {n : Int}

/-- Dice have been rolled as the new hand: each lies in the slot of its place, unconsumed, with a
face that was drawn for it, and nothing is used. -/
structure Rolled (p : Play σ) (dice : List DieId) (q : Play σ) : Prop where
  length : q.hand.dice.length = dice.length
  maxSize : q.hand.maxSize = p.hand.maxSize
  die : ∀ (k : Nat) i, q.hand.dice[k]? = some i →
    (q.dieOf i).slot = k ∧ (q.dieOf i).consumed = false ∧ ∃ g : σ,
      (Generator.between Die.lowestFace (q.dieOf i).sides g).answer = .ok (q.dieOf i).face
  fired : q.hand.fired = []
  scene : q.scene = p.scene.resetAction

theorem Rolled.congr (h : p.Rolled dice q) (hr : q.SameBooks r) : p.Rolled dice r where
  length := by rw [hr.hand, h.length]
  maxSize := by rw [hr.hand, h.maxSize]
  die k i hi := by
    rw [Die.eq_of_outline (hr.outline i)]
    exact h.die k i (hr.hand ▸ hi)
  fired := by rw [hr.hand, h.fired]
  scene := by rw [hr.scene, h.scene]

theorem rolled_deal (h : (p.deal dice).answer = .ok ()) :
    p.Rolled dice (p.deal dice).state.freshBooks where
  length := (p.deal_books dice).1
  maxSize := (p.deal_books dice).2
  die k i hi := by
    obtain ⟨d, g, n, hn, hdie⟩ := deal_ok h hi
    change ((p.deal dice).state.dieOf i).slot = k ∧ ((p.deal dice).state.dieOf i).consumed = false ∧
      ∃ g : σ, (Generator.between Die.lowestFace ((p.deal dice).state.dieOf i).sides g).answer =
        .ok ((p.deal dice).state.dieOf i).face
    rw [hdie]
    exact ⟨rfl, rfl, g, hn⟩
  fired := rfl
  scene := by
    change (p.deal dice).state.scene.resetAction = _
    rw [deal, (forEach_rollInto_books _ _).2]

theorem rollInto_obeys {g : σ} (hg : Generator.Reliable g) (placed : DieId × Nat)
    (hp : Generator.Drawn g p.chance) :
    (rollInto placed p).Obeys (fun q => Generator.Drawn g q.chance) fun _ _ => False := by
  obtain ⟨i, k⟩ := placed
  let d : Die := (p.modifyDie i fun d => { d with slot := k, consumed := false }).dieOf i
  obtain ⟨n, hn⟩ := hg p.chance hp d
  have hroll : d.roll p.chance =
      .done (d.withFace n) (Generator.between Die.lowestFace d.sides p.chance).state := by
    simp only [Die.roll, Outcome.andThen, hn]
  unfold rollInto
  simp only [d] at hroll
  simp only [modifyDie] at hroll ⊢
  rw [hroll]
  exact Outcome.obeys_done (hp.draw d)

theorem deal_of_reliable (h : Generator.Reliable p.chance) (dice : List DieId) :
    (p.deal dice).answer = .ok () := by
  have hall : (p.deal dice).Obeys (fun q => Generator.Drawn p.chance q.chance) fun _ _ => False :=
    Outcome.obeys_forEach (fun _ placed _ _ _ hq _ => rollInto_obeys h placed hq) .start
  obtain ⟨_, hu⟩ | ⟨_, _, hfalse⟩ := hall.completes
  · exact hu
  · exact hfalse.elim

theorem rollHand_eq (hd : dice ≠ []) (hfit : (dice.length : Int) ≤ p.hand.maxSize) :
    p.rollHand dice = (p.deal dice).andThen fun _ q => q.freshBooks.fire .onRoll none := by
  simp [rollHand, hd, Move.checkSize_eq, hfit]
  rfl

theorem settles_rollHand (hd : dice ≠ []) (hfit : (dice.length : Int) ≤ p.hand.maxSize)
    (hg : Generator.Reliable p.chance) :
    Settles (p.Rolled dice) .onRoll none (p.rollHand dice) := by
  have hdeal := deal_of_reliable hg dice
  rw [rollHand_eq hd hfit, Outcome.andThen, hdeal]
  exact settles_fire (rolled_deal hdeal) (fun r hr => (rolled_deal hdeal).congr hr) _ _

theorem settles_reroll (hl : p.locate ref = .ok i) (hc : (p.dieOf i).consumed = false)
    (hn : (Generator.between Die.lowestFace (p.dieOf i).sides p.chance).answer = .ok n) :
    Settles (p.Rerolled i n) .onRoll (some i) (p.reroll ref) := by
  let chance := (Generator.between Die.lowestFace (p.dieOf i).sides p.chance).state
  have hreroll : p.reroll ref = (p.showFace i n chance).fire .onRoll (some i) := by
    simp only [reroll, hl, hc, Die.roll, Outcome.andThen, hn]
    rfl
  rw [hreroll]
  exact settles_fire (p.rerolled_showFace i n chance)
    (fun r hr => (p.rerolled_showFace i n chance).congr hr) _ _

theorem slotted_of_rolled (h : p.Rolled dice q) : q.Slotted := by
  intro i hi
  obtain ⟨k, hk⟩ := List.mem_iff_getElem?.mp hi
  have hlt := (List.getElem?_eq_some_iff.mp hk).1
  rw [(h.die k i hk).1]
  omega

end Play

namespace Move

variable {m : Move σ} {p : Play σ}

theorem Kept.slotted {q : Play σ} (h : m.Kept p q) (hp : p.Slotted) : q.Slotted := by
  refine hp.congr h.hand.1 fun i => ?_
  obtain ⟨consumed, hd⟩ | ⟨ref, n, -, -, hd⟩ := h.die i
  · rw [hd]
  · rw [hd]
    rfl

theorem slotted_books (hb : m.breaksOff p = false) (h : m.starts p = true ∨ p.Slotted) :
    (m.books p).state.Slotted := by
  cases hs : m.starts p with
  | false => exact (books_kept hs).slotted (h.resolve_left (by simp [hs]))
  | true =>
    cases m with
    | rollHand dice =>
      have hok := deal_of_not_breaksOff hs hb
      rw [books_rollHand hs, Outcome.andThen, hok]
      exact Play.slotted_of_rolled (Play.rolled_deal hok)
    | setHand dice inScene =>
      rw [books_setHand hs]
      exact p.slotted_take dice inScene
    | _ => cases hs

theorem slotted_play (hb : m.breaksOff p = false) (h : m.starts p = true ∨ p.Slotted) :
    (m.play p).state.Slotted := by
  rw [play_eq]
  refine Outcome.andThen_keeps (slotted_books hb h) fun due q hq => ?_
  obtain ⟨hh, ho⟩ := due.settle_keeps q
  exact hq.congr (congrArg (·.dice) hh) fun i => Die.slot_of_outline (ho i)

theorem breaksOff_of_reliable (h : Generator.Reliable p.chance) (m : Move σ) :
    m.breaksOff p = false := by
  cases m with
  | rollHand dice => simp [breaksOff, Play.deal_of_reliable h dice, Except.isOk, Except.toBool]
  | _ => rfl

end Move

namespace Play

theorem slotted_after {p : Play σ} (hp : p.Slotted) {ms : List (Move σ)}
    (hw : whole (p.history ms) = true) : (p.after ms).Slotted := by
  induction ms using List.reverseRecOn with
  | nil => exact hp
  | append_singleton ms m ih =>
    rw [history_append, whole_append] at hw
    rw [after_append]
    exact m.slotted_play hw.1 (hw.2.imp_right ih)

/-- A source of chance that never fails breaks no roll off. -/
theorem whole_of_reliable {p : Play σ} {ms : List (Move σ)}
    (h : ∀ e ∈ p.history ms, Generator.Reliable e.before.chance) :
    whole (p.history ms) = true := by
  induction ms using List.reverseRecOn with
  | nil => rfl
  | append_singleton ms m ih =>
    rw [history_append] at h ⊢
    refine (whole_append _ _).mpr ⟨Move.breaksOff_of_reliable (h _ (by simp)) m, .inr (ih ?_)⟩
    exact fun e he => h e (List.mem_append_left _ he)

end Play

/-- A refused step changes nothing: an empty or oversized roll, an oversized hand, a reference that
is not within the hand. A step with arguments that are taken, and faces drawn, goes through, or it
fails by an affix in its dispatch; in both cases its books are complete. The neighbors of a die are
told in every run from an empty hand whose last roll was not broken off. -/
theorem refused_steps_leave_no_trace :
    (∀ p : Play σ, p.rollHand [] = .failed .emptyHand p) ∧
    (∀ (p : Play σ) (dice : List DieId), p.hand.maxSize < dice.length →
      let e := Failure.oversizedHand dice.length p.hand.maxSize
      (dice ≠ [] → p.rollHand dice = .failed e p) ∧
        ∀ inScene, p.setHand dice inScene = .failed e p) ∧
    (∀ (p : Play σ) (ref : DieRef), ¬ ref.Within p →
      let e := ref.refusal p
      p.reroll ref = .failed e p ∧ p.consume ref = .failed e p ∧
        (∀ inScene, p.restore ref inScene = .failed e p) ∧ p.neighbors ref = .error e) ∧
    (∀ (p : Play σ) (dice : List DieId), (dice.length : Int) ≤ p.hand.maxSize →
      (dice ≠ [] → Generator.Reliable p.chance →
        Play.Settles (p.Rolled dice) .onRoll none (p.rollHand dice)) ∧
        ∀ inScene, p.setHand dice inScene = .done () (p.take dice inScene)) ∧
    (∀ (p : Play σ) (ref : DieRef), ref.Within p → ∃ i ∈ p.hand.dice, p.locate ref = .ok i ∧
      ((p.dieOf i).consumed = true → p.reroll ref = .done {} p) ∧
      ((p.dieOf i).consumed = false → ∀ n,
        (Generator.between Die.lowestFace (p.dieOf i).sides p.chance).answer = .ok n →
          Play.Settles (p.Rerolled i n) .onRoll (some i) (p.reroll ref)) ∧
      ((p.dieOf i).consumed = true ∨ (p.dieOf i).slot ∈ p.hand.fired →
        p.consume ref = .done {} p) ∧
      ((p.dieOf i).consumed = false → (p.dieOf i).slot ∉ p.hand.fired →
        Play.Settles (p.Used i) .onUse (some i) (p.consume ref)) ∧
      ∀ inScene, p.restore ref inScene =
        if (p.dieOf i).consumed then .done true (p.regain i inScene) else .done false p) ∧
    ∀ (p : Play σ) (ms : List (Move σ)), p.hand.dice = [] →
      ((∀ e ∈ p.history ms, Generator.Reliable e.before.chance) → whole (p.history ms) = true) ∧
      (whole (p.history ms) = true → ∀ ref : DieRef, ref.Within (p.after ms) →
        ∃ beside, (p.after ms).neighbors ref = .ok beside) := by
  refine ⟨fun p => rfl, fun p dice hlarge => ?_, fun p ref hout => ?_, fun p dice hfit => ?_,
    fun p ref hin => ?_, fun p ms hempty => ⟨Play.whole_of_reliable, fun hw ref hin => ?_⟩⟩
  · have hrefused : p.checkSize dice.length =
        .error (.oversizedHand dice.length p.hand.maxSize) := by
      simp [Play.checkSize, hlarge]
    refine ⟨fun hd => ?_, fun inScene => ?_⟩
    · simp [Play.rollHand, hd, hrefused]
    · simp [Play.setHand, hrefused]
  · have hl := Play.locate_of_not_within hout
    exact ⟨by simp [Play.reroll, hl], by simp [Play.consume, hl],
      fun inScene => by simp [Play.restore, hl],
      by simp [Play.neighbors, hl, bind, Except.bind]⟩
  · refine ⟨fun hd hg => Play.settles_rollHand hd hfit hg, fun inScene => ?_⟩
    simp [Play.setHand, Move.checkSize_eq, hfit, Play.take]
  · obtain ⟨i, hi, hl⟩ := Play.locate_of_within hin
    refine ⟨i, hi, hl, fun hc => ?_, fun hc n hn => Play.settles_reroll hl hc hn, fun hc => ?_,
      fun hc hf => Play.settles_consume hl hc hf, fun inScene => Play.restore_of_locate hl inScene⟩
    · simp [Play.reroll, hl, hc]
    · simp only [Play.consume, hl]
      exact if_pos (by simpa using hc)
  · have hp : p.Slotted := by simp [Play.Slotted, hempty]
    exact Play.neighbors_of_slotted (Play.slotted_after hp hw) hin

/-- An oversized hand and a slot beyond the hand are refused; a use that an affix breaks off with a
number that has no whole part has been written down. -/
theorem refused_steps_leave_no_trace_and_broken_use_stands :
    let drain : Affix :=
      { name := "Drain", trigger := .onUse, selector := .all
        effect := { kind := .flatBonus, value := 0 / 0 } }
    let p : Play Turns :=
      { tray := { cells := [(0, { inherent := [drain] }), (1, {})], next := 2 }
        hand := { maxSize := 2 }, scene := { used := [5], usedCount := 1 }, chance := {} }
    let q := (p.rollHand [0, 1]).state
    p.setHand [0, 1, 0] true = .failed (.oversizedHand 3 2) p ∧
      q.consume (.slot 2) = .failed (.slotOutOfRange 2 2) q ∧
      Play.Settles (p.Rolled [0, 1]) .onRoll none (p.rollHand [0, 1]) ∧
      (q.consume (.slot 0)).answer = .error .notANumber ∧
      Play.Settles (q.Used 2) .onUse (some 2) (q.consume (.slot 0)) ∧
      ∃ beside,
        (p.after [.rollHand [0, 1], .consume (.slot 0)]).neighbors (.slot 1) = .ok beside := by
  intro drain p q
  obtain ⟨-, hlarge, hout, hfit, hin, hrun⟩ := refused_steps_leave_no_trace (σ := Turns)
  have hdice : q.hand.dice = [2, 3] := by decide +kernel
  have hafter : (p.after [.rollHand [0, 1], .consume (.slot 0)]).hand.dice = [2, 3] := by
    decide +kernel
  have houtside : ¬ DieRef.Within q (.slot 2) := by simp [DieRef.Within, hdice]
  have hrefusal : DieRef.refusal q (.slot 2) = .slotOutOfRange 2 2 := by
    simp [DieRef.refusal, hdice]
  obtain ⟨i, -, hl, -, -, -, hused, -⟩ := hin q (.slot 0) (by simp [DieRef.Within, hdice])
  obtain rfl : 2 = i := by simpa [Play.locate, hdice] using hl
  obtain ⟨hwhole, hneighbors⟩ := hrun p [.rollHand [0, 1], .consume (.slot 0)] rfl
  refine ⟨(hlarge p [0, 1, 0] (by decide)).2 true,
    (hout q (.slot 2) houtside).2.1.trans (congrArg (Outcome.failed · q) hrefusal),
    (hfit p [0, 1] (by decide)).1 (by simp) (Turns.inBounds.reliable _), by decide +kernel,
    hused (by decide +kernel) (by decide +kernel), ?_⟩
  exact hneighbors (hwhole fun e _ => Turns.inBounds.reliable _) (.slot 1)
    (by simp [DieRef.Within, hafter])

end AffixRules
