import AffixRules.Proofs.Hand.Books

/-! A use is dispatched once. A slot whose use was dispatched stays among the fired ones, whatever
came of the dispatch, until a move frees it; and a use is dispatched only where its slot has not
fired. -/
namespace AffixRules

variable {σ : Type} [Generator σ]

namespace Event

/-- The slot whose use a move dispatches, if it consumes a die and dispatches the use of it. -/
def usedSlot? (e : Event σ) : Option Int :=
  match e.move, (e.move.books e.before).answer with
  | .consume _, .ok (.dispatch .onUse (some i)) => some (e.before.dieOf i).slot
  | _, _ => none

/-- Whether a move lets the die of a slot be used again: it restored the die, or reset the turn, or
began a new hand. -/
def frees (e : Event σ) (slot : Int) : Bool :=
  match e.move with
  | .restore ref _ =>
    match e.before.locate ref, e.outcome.answer with
    | .ok i, .ok (.restored true) => (e.before.dieOf i).slot = slot
    | _, _ => false
  | .resetTurn _ => true
  | m => m.starts e.before

end Event

namespace Move

variable {m : Move σ} {p : Play σ} {slot : Int} {ref : DieRef}

/-- A dispatched use is the use of a ready die whose slot has not fired. -/
theorem exists_of_usedSlot? (h : (Event.mk p m).usedSlot? = some slot) :
    ∃ ref i, m = .consume ref ∧ p.locate ref = .ok i ∧ (p.dieOf i).slot = slot ∧
      (p.dieOf i).consumed = false ∧ slot ∉ p.hand.fired := by
  cases m with
  | consume ref =>
    simp only [Event.usedSlot?, books] at h
    cases hl : p.locate ref with
    | error e =>
      simp only [hl] at h
      cases h
    | ok i =>
      simp only [hl] at h
      by_cases hc : ((p.dieOf i).consumed || p.hand.fired.contains (p.dieOf i).slot) = true
      · simp only [hc] at h
        cases h
      · simp only [hc] at h
        cases h
        simp only [Bool.or_eq_true, List.contains_iff_mem, not_or, Bool.not_eq_true] at hc
        exact ⟨ref, i, rfl, hl, rfl, hc.1, hc.2⟩
  | _ => cases h

/-- A consumption dispatches the use of its die, which counts as spent then, or does nothing. -/
theorem consume_cases (p : Play σ) (ref : DieRef) :
    match (Event.mk p (.consume ref)).usedSlot? with
    | some slot => ∃ i, p.locate ref = .ok i ∧ (p.dieOf i).slot = slot ∧
        p.consume ref = (p.spend i).fire .onUse (some i)
    | none => p.consume ref = .done {} p ∨ ∃ e, p.consume ref = .failed e p := by
  simp only [Event.usedSlot?, books, Play.consume]
  cases hl : p.locate ref with
  | error e => exact .inr ⟨e, rfl⟩
  | ok i =>
    by_cases hc : ((p.dieOf i).consumed || p.hand.fired.contains (p.dieOf i).slot) = true
    · simp only [hc]
      exact .inl rfl
    · simp only [hc]
      exact ⟨i, rfl, rfl, rfl⟩

theorem frees_of_starts (h : m.starts p = true) : (Event.mk p m).frees slot = true := by
  cases m with
  | rollHand dice => exact h
  | setHand dice inScene => exact h
  | _ => cases h

theorem frees_of_restored {i : DieId} {inScene : Bool} (hl : p.locate ref = .ok i)
    (hc : (p.dieOf i).consumed = true) :
    (Event.mk p (.restore ref inScene)).frees (p.dieOf i).slot = true := by
  simp only [Event.frees, Event.outcome, play, Play.restore, hl, hc]
  exact decide_eq_true rfl

/-- What has fired stays fired through the books of a move that does not free it. -/
theorem mem_fired_books (hs : slot ∈ p.hand.fired) (hm : (Event.mk p m).frees slot = false) :
    slot ∈ (m.books p).state.hand.fired := by
  have hstart : m.starts p = false :=
    Bool.eq_false_iff.mpr fun h => Bool.eq_false_iff.mp hm (frees_of_starts h)
  generalize hq : (m.books p).state = q
  have hkept : m.Kept p q := hq ▸ books_kept hstart
  cases hkept with
  | idle => exact hs
  | other scene chance => exact hs
  | face hmove hl hc hn chance => exact hs
  | spend hmove hl hc hf => exact (p.mem_fired_spend _ _).mpr (.inl hs)
  | @regain ref i inScene hmove hl hc =>
    have hne : slot ≠ (p.dieOf i).slot := by
      rintro rfl
      subst hmove
      exact Bool.eq_false_iff.mp hm (frees_of_restored hl hc)
    rw [Play.hand_regain]
    exact List.mem_filter.mpr ⟨hs, by simpa using hne⟩
  | reset hmove =>
    subst hmove
    cases hm

theorem mem_fired_play (hs : slot ∈ p.hand.fired) (hm : (Event.mk p m).frees slot = false) :
    slot ∈ (m.play p).state.hand.fired := by
  rw [play_eq]
  refine Outcome.andThen_keeps (p := fun q : Play σ => slot ∈ q.hand.fired)
    (mem_fired_books hs hm) fun due q hq => ?_
  rw [(due.settle_keeps q).1]
  exact hq

/-- A dispatched use has fired, also where the dispatch fails. -/
theorem mem_fired_of_usedSlot? (h : (Event.mk p m).usedSlot? = some slot) :
    slot ∈ (m.play p).state.hand.fired := by
  obtain ⟨ref, i, rfl, hl, rfl, hc, hf⟩ := exists_of_usedSlot? h
  have hbooks : ((Move.consume ref).books p).state = p.spend i := by
    simp [books, hl, hc, hf, Outcome.done]
  rw [play_eq]
  refine Outcome.andThen_keeps (p := fun q : Play σ => (p.dieOf i).slot ∈ q.hand.fired) ?_
    fun due q hq => ?_
  · rw [hbooks]
    exact (p.mem_fired_spend i _).mpr (.inr rfl)
  · rw [(due.settle_keeps q).1]
    exact hq

end Move

namespace Play

theorem mem_fired_after {p : Play σ} {slot : Int} (hs : slot ∈ p.hand.fired) {ms : List (Move σ)}
    (h : ∀ e ∈ p.history ms, e.frees slot = false) : slot ∈ (p.after ms).hand.fired := by
  induction ms generalizing p with
  | nil => exact hs
  | cons m ms ih =>
    obtain ⟨hm, hms⟩ := List.forall_mem_cons.mp h
    exact ih (Move.mem_fired_play hs hm) hms

/-- A history that is cut in two is the history of the moves before the cut and, from where these
lead, of those behind it. -/
theorem exists_of_history_eq_append {p : Play σ} {ms : List (Move σ)} {es fs : List (Event σ)}
    (h : p.history ms = es ++ fs) :
    ∃ ns rest, p.history ns = es ∧ (p.after ns).history rest = fs := by
  induction es generalizing p ms with
  | nil => exact ⟨[], ms, rfl, h⟩
  | cons e es ih =>
    cases ms with
    | nil => cases h
    | cons m ms =>
      obtain ⟨rfl, htail⟩ := List.cons.inj h
      obtain ⟨ns, rest, hns, hrest⟩ := ih htail
      exact ⟨m :: ns, rest, congrArg _ hns, hrest⟩

theorem exists_frees_between {p : Play σ} {ms : List (Move σ)} {before between rest : List (Event σ)}
    {e f : Event σ} {slot : Int} (h : p.history ms = before ++ e :: (between ++ f :: rest))
    (he : e.usedSlot? = some slot) (hf : f.usedSlot? = some slot) :
    ∃ g ∈ between, g.frees slot = true := by
  obtain ⟨ns, tail, -, htail⟩ := exists_of_history_eq_append h
  cases tail with
  | nil => cases htail
  | cons m tail =>
    obtain ⟨rfl, hafter⟩ := List.cons.inj htail
    obtain ⟨mid, last, hmid, hlast⟩ := exists_of_history_eq_append hafter
    cases last with
    | nil => cases hlast
    | cons n last =>
      obtain ⟨rfl, -⟩ := List.cons.inj hlast
      by_cases hfree : ∃ g ∈ between, g.frees slot = true
      · exact hfree
      · -- the slot has fired with the first dispatch, and nothing freed it before the second
        have hkept : ∀ g ∈ (m.play (p.after ns)).state.history mid, g.frees slot = false :=
          fun g hg => Bool.eq_false_iff.mpr fun hg' => hfree ⟨g, hmid ▸ hg, hg'⟩
        have hfired := mem_fired_after (Move.mem_fired_of_usedSlot? he) hkept
        obtain ⟨-, -, -, -, -, -, hnot⟩ := Move.exists_of_usedSlot? hf
        exact absurd hfired hnot

omit [Generator σ] in
theorem consume_consumed {p : Play σ} {ref : DieRef} {i : DieId} (hl : p.locate ref = .ok i)
    (hc : (p.dieOf i).consumed = true) : p.consume ref = .done {} p := by
  simp [consume, hl, hc]

end Play

/-- Between two dispatches of the use of one slot a move frees the slot, however the first dispatch
ended. A consumption that dispatches no use changes nothing, so not that of a consumed die. -/
theorem use_dispatched_once_until_freed :
    (∀ (p : Play σ) (ms : List (Move σ)) (before between rest : List (Event σ)) (e f : Event σ)
      (slot : Int), p.history ms = before ++ e :: (between ++ f :: rest) →
      e.usedSlot? = some slot → f.usedSlot? = some slot →
      ∃ g ∈ between, g.frees slot = true) ∧
    (∀ (p : Play σ) (ref : DieRef) (i : DieId), p.locate ref = .ok i →
      (p.dieOf i).consumed = true → p.consume ref = .done {} p) ∧
    ∀ (p : Play σ) (ref : DieRef),
      match (Event.mk p (.consume ref)).usedSlot? with
      | some slot => ∃ i, p.locate ref = .ok i ∧ (p.dieOf i).slot = slot ∧
          p.consume ref = (p.spend i).fire .onUse (some i)
      | none => p.consume ref = .done {} p ∨ ∃ e, p.consume ref = .failed e p :=
  ⟨fun _ _ _ _ _ _ _ _ h he hf => Play.exists_frees_between h he hf,
    fun _ _ _ hl hc => Play.consume_consumed hl hc, Move.consume_cases⟩

/-- A use whose dispatch fails is not dispatched again before its die is restored. -/
theorem use_dispatched_once_until_freed_by_restoring :
    let drain : Affix :=
      { name := "Drain", trigger := .onUse, selector := .all
        effect := { kind := .flatBonus, value := 0 / 0 } }
    let p : Play Script :=
      { tray := { cells := [(0, { inherent := [drain] }), (1, {})], next := 2 }
        hand := {}, scene := {}, chance := { draws := [0.5] } }
    let e : Event Script := ⟨p.after [.rollHand [0, 1]], .consume (.slot 0)⟩
    let q := e.outcome.state
    let ms : List (Move Script) := [.consume (.slot 0), .consume (.slot 1), .restore (.slot 0) true]
    let f : Event Script := ⟨q.after ms, .consume (.slot 0)⟩
    e.outcome.answer.isOk = false ∧ e.usedSlot? = some 0 ∧ f.usedSlot? = some 0 ∧
      (∃ g ∈ q.history ms, g.frees 0 = true) ∧ q.consume (.slot 0) = .done {} q := by
  intro drain p e q ms f
  have he : e.usedSlot? = some 0 := by decide +kernel
  have hf : f.usedSlot? = some 0 := by decide +kernel
  have hdice : q.hand.dice = [2, 3] := by decide +kernel
  have hlocate : q.locate (.slot 0) = .ok 2 := by simp [Play.locate, hdice]
  have hconsumed : (q.dieOf 2).consumed = true := by decide +kernel
  obtain ⟨hfreed, hidle, -⟩ := use_dispatched_once_until_freed (σ := Script)
  exact ⟨by decide +kernel, he, hf,
    hfreed p (.rollHand [0, 1] :: .consume (.slot 0) :: ms ++ [.consume (.slot 0)]) [⟨p, _⟩] _ []
      e f 0 rfl he hf,
    hidle q (.slot 0) 2 hlocate hconsumed⟩

end AffixRules
