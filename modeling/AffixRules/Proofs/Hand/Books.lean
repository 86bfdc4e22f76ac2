import AffixRules.Proofs.Hand.Run

/-! What the books of play write on the dice, slot by slot. -/
namespace AffixRules

variable {σ : Type} [Generator σ]

theorem Die.exists_of_roll_ok {d e : Die} {g : σ} (h : (d.roll g).answer = .ok e) :
    ∃ n, (Generator.between Die.lowestFace d.sides g).answer = .ok n ∧ e = d.withFace n := by
  obtain ⟨n, hn, he, -⟩ := Outcome.exists_of_andThen_ok h
  exact ⟨n, hn, by cases he; rfl⟩

/-- Steps that each write the item of one place leave all others as they are. -/
theorem Outcome.forEach_zipIdx {τ ι β : Type} {step : ι × Nat → τ → Outcome τ Unit}
    (read : τ → ι → β) (placed : Nat → β → β → Prop)
    (hstep : ∀ i k t, (step (i, k) t).answer = .ok () →
      placed k (read t i) (read (step (i, k) t).state i) ∧
        ∀ j, i ≠ j → read (step (i, k) t).state j = read t j)
    {ids : List ι} (hn : ids.Nodup) {start : Nat} {t : τ}
    (h : (forEach step (ids.zipIdx start) t).answer = .ok ()) :
    (∀ j, j ∉ ids → read (forEach step (ids.zipIdx start) t).state j = read t j) ∧
    ∀ k i, ids[k]? = some i →
      placed (start + k) (read t i) (read (forEach step (ids.zipIdx start) t).state i) := by
  induction ids generalizing start t with
  | nil => exact ⟨fun _ _ => rfl, fun k i hk => by simp at hk⟩
  | cons i ids ih =>
    obtain ⟨hi, hids⟩ := List.nodup_cons.mp hn
    rw [List.zipIdx_cons, forEach] at h ⊢
    obtain ⟨_, hfirst, hrest, heq⟩ := exists_of_andThen_ok h
    obtain ⟨hwritten, hkept⟩ := hstep i start t hfirst
    obtain ⟨hother, hplaced⟩ := ih hids hrest
    rw [heq]
    constructor
    · intro j hj
      have hne : i ≠ j := fun he => hj (by simp [he])
      rw [hother j fun hm => hj (List.mem_cons_of_mem _ hm), hkept j hne]
    · intro k j hk
      cases k with
      | zero =>
        -- later steps leave the first item alone, as it is not among theirs
        obtain rfl : i = j := by simpa using hk
        rw [hother i hi]
        exact hwritten
      | succ k =>
        have hj : ids[k]? = some j := by simpa using hk
        have hne : i ≠ j := fun he => hi (he ▸ List.mem_of_getElem? hj)
        have hlater := hplaced k j hj
        rw [hkept j hne, Nat.add_right_comm] at hlater
        exact hlater

/-- A die in its slot, unconsumed, with a face that the source of chance gave. -/
def Die.Dealt (σ : Type) [Generator σ] (slot : Nat) (d e : Die) : Prop :=
  ∃ (g : σ) (n : Int), (Generator.between Die.lowestFace d.sides g).answer = .ok n ∧
    e = { d with slot, consumed := false, face := n, value := n }

namespace Play

theorem rollInto_ok {i : DieId} {k : Nat} {p : Play σ} (h : (rollInto (i, k) p).answer = .ok ()) :
    Die.Dealt σ k (p.dieOf i) ((rollInto (i, k) p).state.dieOf i) ∧
      ∀ j, i ≠ j → (rollInto (i, k) p).state.dieOf j = p.dieOf j := by
  let q := p.modifyDie i fun d => { d with slot := k, consumed := false }
  have hq : q.dieOf i = { p.dieOf i with slot := k, consumed := false } := by simp [q]
  unfold rollInto at h ⊢
  cases hr : ((q.dieOf i).roll q.chance).answer with
  | error e =>
    simp only [q] at hr
    simp only [hr] at h
    cases h
  | ok d =>
    obtain ⟨n, hn, hd⟩ := Die.exists_of_roll_ok hr
    rw [hq] at hn hd
    simp only [q] at hr
    simp only [hr]
    subst hd
    constructor
    · exact ⟨q.chance, n, hn, by simp [dieOf, Outcome.done, Die.withFace]⟩
    · intro j hj
      simp [dieOf, modifyDie, Outcome.done, hj]

theorem forEach_rollInto_books (placed : List (DieId × Nat)) (p : Play σ) :
    (Outcome.forEach rollInto placed p).state.hand = p.hand ∧
      (Outcome.forEach rollInto placed p).state.scene = p.scene := by
  refine Outcome.forEach_keeps (p := fun q : Play σ => q.hand = p.hand ∧ q.scene = p.scene) ?_
    ⟨rfl, rfl⟩
  intro placed _ q hq
  unfold rollInto
  dsimp only
  split <;> exact hq

theorem deal_books (dice : List DieId) (p : Play σ) :
    (p.deal dice).state.hand.dice.length = dice.length ∧
      (p.deal dice).state.hand.maxSize = p.hand.maxSize := by
  simp only [deal, (forEach_rollInto_books _ _).1, Store.allocAll_fst, List.length_range']
  exact ⟨by simp [Tray.dice], trivial⟩

theorem deal_ok {dice : List DieId} {p : Play σ} (h : (p.deal dice).answer = .ok ()) {k : Nat}
    {i : DieId} (hi : (p.deal dice).state.hand.dice[k]? = some i) :
    ∃ d, Die.Dealt σ k d ((p.deal dice).state.dieOf i) := by
  have hn : (p.tray.allocAll (p.tray.dice dice)).1.Nodup := by
    rw [Store.allocAll_fst]
    exact List.nodup_range'
  simp only [deal, (forEach_rollInto_books _ _).1] at hi
  have hplaced :=
    (Outcome.forEach_zipIdx dieOf (Die.Dealt σ) (fun _ _ _ => rollInto_ok) hn h).2 k i hi
  rw [Nat.zero_add] at hplaced
  exact ⟨_, hplaced⟩

omit [Generator σ]

theorem get_placeAll {dice : List DieId} (hn : dice.Nodup) (t : Tray) {k : Nat} {i : DieId}
    (hi : dice[k]? = some i) : (placeAll t dice).get i = { t.get i with slot := k } := by
  let step (x : DieId × Nat) (u : Tray) : Outcome Tray Unit :=
    .done () (u.modify x.1 fun d => { d with slot := x.2 })
  have hstep : ∀ i k u, (step (i, k) u).answer = .ok () →
      (step (i, k) u).state.get i = { u.get i with slot := k } ∧
        ∀ j, i ≠ j → (step (i, k) u).state.get j = u.get j := by
    intro i k u _
    exact ⟨by simp [step, Outcome.done], fun j hj => by simp [step, Outcome.done, hj]⟩
  have hrun : Outcome.forEach step dice.zipIdx t = .done () (placeAll t dice) :=
    Outcome.forEach_done _ _ _
  have hplaced := (Outcome.forEach_zipIdx Store.get
    (fun k (d e : Die) => e = { d with slot := k }) hstep hn (by rw [hrun]; rfl)).2 k i hi
  rw [hrun, Nat.zero_add] at hplaced
  exact hplaced

theorem dieOf_resetTurn (p : Play σ) (inScene : Bool) (j : DieId) :
    (p.resetTurn inScene).dieOf j =
      if j ∈ p.hand.dice then { p.dieOf j with consumed := false } else p.dieOf j := by
  have hfold : ∀ (dice : List DieId) (t : Tray),
      (dice.foldl (fun t i => t.modify i fun d => { d with consumed := false }) t).get j =
        if j ∈ dice then { t.get j with consumed := false } else t.get j := by
    intro dice
    induction dice with
    | nil => exact fun t => rfl
    | cons i dice ih =>
      intro t
      rw [List.foldl_cons, ih, Store.get_modify]
      by_cases hj : i = j
      · subst hj
        simp
      · have hji : j ≠ i := fun he => hj he.symm
        simp [hj, hji]
  cases inScene <;> exact hfold p.hand.dice p.tray

@[simp] theorem dieOf_spend (p : Play σ) (i j : DieId) :
    (p.spend i).dieOf j = if i = j then { p.dieOf i with consumed := true } else p.dieOf j := by
  refine Eq.trans ?_ (p.dieOf_modifyDie i j fun d => { d with consumed := true })
  unfold spend markFired
  dsimp only
  split <;> rfl

@[simp] theorem hand_spend (p : Play σ) (i : DieId) :
    (p.spend i).hand.dice = p.hand.dice ∧ (p.spend i).hand.maxSize = p.hand.maxSize := by
  unfold spend markFired
  dsimp only
  split <;> exact ⟨rfl, rfl⟩

theorem mem_fired_spend (p : Play σ) (i : DieId) (slot : Int) :
    slot ∈ (p.spend i).hand.fired ↔ slot ∈ p.hand.fired ∨ slot = (p.dieOf i).slot := by
  unfold spend markFired
  dsimp only
  split
  next h =>
    have hm : (p.dieOf i).slot ∈ p.hand.fired := by simpa [modifyDie] using h
    constructor
    · exact .inl
    · rintro (hs | rfl)
      · exact hs
      · exact hm
  next => simp [modifyDie]

@[simp] theorem dieOf_regain (p : Play σ) (i j : DieId) (inScene : Bool) :
    (p.regain i inScene).dieOf j =
      if i = j then { p.dieOf i with consumed := false } else p.dieOf j := by
  refine Eq.trans ?_ (p.dieOf_modifyDie i j fun d => { d with consumed := false })
  cases inScene <;> rfl

theorem hand_regain (p : Play σ) (i : DieId) (inScene : Bool) :
    (p.regain i inScene).hand =
      { p.hand with fired := p.hand.fired.filter (· ≠ (p.dieOf i).slot) } := by
  cases inScene <;> rfl

/-- A new face of a die, and what is left of the source of chance. -/
def showFace (p : Play σ) (i : DieId) (n : Int) (chance : σ) : Play σ :=
  { p with tray := p.tray.set i ((p.dieOf i).withFace n), chance }

@[simp] theorem dieOf_showFace (p : Play σ) (i j : DieId) (n : Int) (chance : σ) :
    (p.showFace i n chance).dieOf j = if i = j then (p.dieOf i).withFace n else p.dieOf j :=
  Store.get_set ..

theorem mem_of_locate {p : Play σ} {ref : DieRef} {i : DieId} (h : p.locate ref = .ok i) :
    i ∈ p.hand.dice := by
  cases ref with
  | die j =>
    simp only [locate] at h
    split at h
    next hj => cases h; exact hj
    next => cases h
  | slot k =>
    simp only [locate] at h
    split at h
    next hk =>
      cases h
      split at hk
      · cases hk
      · exact List.mem_of_getElem? hk
    next => cases h

end Play

namespace Move

/-- Whether a move passes the checks of its dice and begins a new hand. -/
def starts (m : Move σ) (p : Play σ) : Bool :=
  match m with
  | .rollHand dice => !dice.isEmpty && decide (dice.length ≤ p.hand.maxSize)
  | .setHand dice _ => decide (dice.length ≤ p.hand.maxSize)
  | _ => false

omit [Generator σ] in
theorem checkSize_eq (p : Play σ) (size : Nat) :
    p.checkSize size =
      if (size : Int) ≤ p.hand.maxSize then .ok ()
      else .error (.oversizedHand size p.hand.maxSize) := by
  unfold Play.checkSize
  by_cases h : p.hand.maxSize < size
  · simp [h, Int.not_le.mpr h]
  · simp [h, Int.not_lt.mp h]

theorem books_rollHand {dice : List DieId} {p : Play σ}
    (hs : (Move.rollHand dice).starts p = true) :
    (Move.rollHand dice).books p =
      (p.deal dice).andThen fun _ q => .done (.dispatch .onRoll none) q.freshBooks := by
  obtain ⟨hne, hfit⟩ : dice.isEmpty = false ∧ (dice.length : Int) ≤ p.hand.maxSize := by
    simpa [starts] using hs
  simp [books, hne, checkSize_eq, hfit]

theorem books_rollHand_refused {dice : List DieId} {p : Play σ}
    (hs : (Move.rollHand dice).starts p = false) :
    ∃ e, (Move.rollHand dice).books p = .failed e p := by
  simp only [books]
  by_cases hd : dice.isEmpty
  · exact ⟨.emptyHand, by simp [hd]⟩
  · have hfit : ¬ (dice.length : Int) ≤ p.hand.maxSize := by simpa [starts, hd] using hs
    exact ⟨.oversizedHand dice.length p.hand.maxSize, by simp [hd, checkSize_eq, hfit]⟩

/-- A roll of the hand that goes through has dealt the whole hand. -/
theorem deal_of_books {dice : List DieId} {p : Play σ} {due : Due}
    (h : ((Move.rollHand dice).books p).answer = .ok due) :
    (p.deal dice).answer = .ok () ∧ due = .dispatch .onRoll none ∧
      ((Move.rollHand dice).books p).state = (p.deal dice).state.freshBooks := by
  cases hs : (Move.rollHand dice).starts p with
  | false =>
    obtain ⟨e, he⟩ := books_rollHand_refused hs
    rw [he] at h
    cases h
  | true =>
    rw [books_rollHand hs] at h ⊢
    obtain ⟨u, hu, hdue, heq⟩ := Outcome.exists_of_andThen_ok h
    cases hdue
    rw [heq]
    exact ⟨hu, rfl, rfl⟩

theorem books_setHand {dice : List DieId} {inScene : Bool} {p : Play σ}
    (hs : (Move.setHand dice inScene).starts p = true) :
    (Move.setHand dice inScene).books p = .done .nothing (p.take dice inScene) := by
  have hfit : (dice.length : Int) ≤ p.hand.maxSize := by simpa [starts] using hs
  simp [books, checkSize_eq, hfit]

/-- All that the books of a move can do while the hand stays. -/
inductive Kept (m : Move σ) (p : Play σ) : Play σ → Prop
  | idle : Kept m p p
  | other (scene : Scene) (chance : σ) : Kept m p { p with scene, chance }
  | face {ref : DieRef} {i : DieId} {n : Int} (hm : m = .reroll ref) (hl : p.locate ref = .ok i)
    (hc : (p.dieOf i).consumed = false)
    (hn : (Generator.between Die.lowestFace (p.dieOf i).sides p.chance).answer = .ok n)
    (chance : σ) : Kept m p (p.showFace i n chance)
  | spend {ref : DieRef} {i : DieId} (hm : m = .consume ref) (hl : p.locate ref = .ok i)
    (hc : (p.dieOf i).consumed = false) (hf : (p.dieOf i).slot ∉ p.hand.fired) :
    Kept m p (p.spend i)
  | regain {ref : DieRef} {i : DieId} {inScene : Bool} (hm : m = .restore ref inScene)
    (hl : p.locate ref = .ok i) (hc : (p.dieOf i).consumed = true) : Kept m p (p.regain i inScene)
  | reset {inScene : Bool} (hm : m = .resetTurn inScene) : Kept m p (p.resetTurn inScene)

theorem books_kept {m : Move σ} {p : Play σ} (hm : m.starts p = false) :
    m.Kept p (m.books p).state := by
  cases m with
  | rollHand dice =>
    obtain ⟨e, he⟩ := books_rollHand_refused hm
    rw [he]
    exact .idle
  | setHand dice inScene =>
    have hs : ¬ (dice.length : Int) ≤ p.hand.maxSize := by simpa [starts] using hm
    simp only [books, checkSize_eq, hs]
    exact .idle
  | reroll ref =>
    simp only [books]
    split
    · exact .idle
    next i hl =>
      split
      · exact .idle
      next hc =>
        split
        · exact .other p.scene _
        next d hr =>
          obtain ⟨n, hn, rfl⟩ := Die.exists_of_roll_ok hr
          exact .face rfl hl (Bool.eq_false_iff.mpr hc) hn _
  | consume ref =>
    simp only [books]
    split
    · exact .idle
    next i hl =>
      split
      · exact .idle
      next hc =>
        simp only [Bool.or_eq_true, List.contains_iff_mem, not_or, Bool.not_eq_true] at hc
        exact .spend rfl hl hc.1 hc.2
  | restore ref inScene =>
    simp only [books]
    split
    · exact .idle
    next i hl =>
      split
      next hc => exact .regain rfl hl hc
      next => exact .idle
  | resetTurn inScene => exact .reset rfl
  | trigger on source? => exact .idle
  | supply scene chance => exact .other scene chance

/-- A kept die is written in its consumed flag alone, or it shows a new face after a reroll. -/
theorem Kept.die {m : Move σ} {p q : Play σ} (h : m.Kept p q) (j : DieId) :
    (∃ consumed, q.dieOf j = { p.dieOf j with consumed }) ∨
      ∃ ref n, m = .reroll ref ∧ p.locate ref = .ok j ∧ q.dieOf j = (p.dieOf j).withFace n := by
  cases h with
  | idle => exact .inl ⟨_, rfl⟩
  | other scene chance => exact .inl ⟨_, rfl⟩
  | @face ref i n hm hl hc hn chance =>
    by_cases hj : i = j
    · subst hj
      exact .inr ⟨ref, n, hm, hl, by simp⟩
    · exact .inl ⟨(p.dieOf j).consumed, by simp [hj]⟩
  | @spend ref i hm hl hc hf =>
    by_cases hj : i = j
    · subst hj
      exact .inl ⟨true, by simp⟩
    · exact .inl ⟨(p.dieOf j).consumed, by simp [hj]⟩
  | @regain ref i inScene hm hl hc =>
    by_cases hj : i = j
    · subst hj
      exact .inl ⟨false, by simp⟩
    · exact .inl ⟨(p.dieOf j).consumed, by simp [hj]⟩
  | @reset inScene hm =>
    by_cases hj : j ∈ p.hand.dice
    · exact .inl ⟨false, by simp [Play.dieOf_resetTurn, hj]⟩
    · exact .inl ⟨(p.dieOf j).consumed, by simp [Play.dieOf_resetTurn, hj]⟩

theorem Kept.hand {m : Move σ} {p q : Play σ} (h : m.Kept p q) :
    q.hand.dice = p.hand.dice ∧ q.hand.maxSize = p.hand.maxSize := by
  cases h with
  | idle => exact ⟨rfl, rfl⟩
  | other scene chance => exact ⟨rfl, rfl⟩
  | face hm hl hc hn chance => exact ⟨rfl, rfl⟩
  | spend hm hl hc hf => exact p.hand_spend _
  | regain hm hl hc => simp [Play.hand_regain]
  | @reset inScene hm => cases inScene <;> exact ⟨rfl, rfl⟩

/-- A move dispatches as it was told to, or for all dice, or for a die of the hand. -/
theorem source_of_books {m : Move σ} {p : Play σ} {on : Trigger} {source? : Option DieId}
    (h : (m.books p).answer = .ok (.dispatch on source?)) :
    m = .trigger on source? ∨ ∀ i ∈ source?, i ∈ (m.books p).state.hand.dice := by
  cases m with
  | rollHand dice =>
    obtain ⟨-, hdue, -⟩ := deal_of_books h
    cases hdue
    exact .inr fun i hi => nomatch hi
  | setHand dice inScene =>
    simp only [books] at h
    split at h <;> cases h
  | reroll ref =>
    rw [(books_kept rfl).hand.1]
    simp only [books] at h
    split at h
    · cases h
    next j hl =>
      split at h
      · cases h
      · split at h
        · cases h
        · cases h
          exact .inr fun i hi => Option.some.inj hi ▸ Play.mem_of_locate hl
  | consume ref =>
    rw [(books_kept rfl).hand.1]
    simp only [books] at h
    split at h
    · cases h
    next j hl =>
      split at h
      · cases h
      · cases h
        exact .inr fun i hi => Option.some.inj hi ▸ Play.mem_of_locate hl
  | restore ref inScene =>
    simp only [books] at h
    split at h
    · cases h
    · split at h <;> cases h
  | resetTurn inScene => cases h
  | trigger on source? =>
    cases h
    exact .inl rfl
  | supply scene chance => cases h

/-- A reroll that goes through gives an unconsumed die a face and leaves the others alone. -/
theorem books_reroll {ref : DieRef} {p : Play σ} {i : DieId} {due : Due}
    (hl : p.locate ref = .ok i) (hc : (p.dieOf i).consumed = false)
    (h : ((Move.reroll ref).books p).answer = .ok due) :
    ∃ n chance, (Generator.between Die.lowestFace (p.dieOf i).sides p.chance).answer = .ok n ∧
      ((Move.reroll ref).books p).state = p.showFace i n chance := by
  simp only [books, hl, hc] at h ⊢
  cases hr : ((p.dieOf i).roll p.chance).answer with
  | error e =>
    simp only [hr] at h
    cases h
  | ok d =>
    obtain ⟨n, hn, rfl⟩ := Die.exists_of_roll_ok hr
    exact ⟨n, _, hn, rfl⟩

end Move

end AffixRules
