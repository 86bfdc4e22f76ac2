import AffixRules.Proofs.Dispatch.Bystander
import AffixRules.Proofs.Hand.Books

/-! A consumed die is inert. Until a move frees it or dispatches from it, no move writes it, and no
move, failing ones included, calls its affixes. -/
namespace AffixRules

variable {σ : Type} [Generator σ]

namespace Event

/-- Whether a move may touch a consumed die: it restores the die, resets the turn, begins a new hand,
or dispatches from the die itself. -/
def rouses (e : Event σ) (i : DieId) : Bool :=
  match e.move with
  | .restore ref _ =>
    match e.before.locate ref with
    | .ok j => j = i
    | .error _ => false
  | .resetTurn _ => true
  | .trigger _ source? => source? = some i
  | m => m.starts e.before

/-- The dice whose affixes a move calls, as the sources of its dispatch. -/
def called (e : Event σ) : List DieId :=
  let o := e.move.books e.before
  match o.answer with
  | .ok (.dispatch _ source?) =>
    (Stage.mk o.state.scene o.state.hand.dice).sources source? o.state.tray
  | _ => []

end Event

namespace Play

/-- The same play, but that a die carries other affixes. -/
def rearm (p : Play σ) (i : DieId) (inherent granted : List Affix) (incomplete : Bool) : Play σ :=
  { p with tray := p.tray.set i { p.dieOf i with inherent, granted, incomplete } }

/-- Plays that agree but for the affixes of one die, which is consumed. -/
def Apart (i : DieId) (d e : Die) (p q : Play σ) : Prop :=
  ∃ u, p.tray.Apart i d e u ∧ q = { p with tray := u }

variable {p q : Play σ} {i j : DieId} {d e : Die}

omit [Generator σ] in
theorem apart_rearm (hc : (p.dieOf i).consumed = true) (inherent granted : List Affix)
    (incomplete : Bool) :
    p.Apart i (p.dieOf i) { p.dieOf i with inherent, granted, incomplete }
      (p.rearm i inherent granted incomplete) := by
  refine ⟨_, ?_, rfl⟩
  exact
    { left := rfl
      right := by simp
      alike := rfl
      consumed := hc
      other := fun j hj => by simp [Ne.symm hj] }

namespace Apart

open Outcome

section

omit [Generator σ]

theorem left (h : p.Apart i d e q) : p.dieOf i = d :=
  let ⟨_, hu, _⟩ := h
  hu.left

theorem books_eq (h : p.Apart i d e q) :
    q.hand = p.hand ∧ q.scene = p.scene ∧ q.chance = p.chance := by
  obtain ⟨u, -, rfl⟩ := h
  exact ⟨rfl, rfl, rfl⟩

theorem other (h : p.Apart i d e q) (hj : j ≠ i) : q.dieOf j = p.dieOf j := by
  obtain ⟨u, hu, rfl⟩ := h
  exact (hu.other j hj).symm

theorem unarmed_eq (h : p.Apart i d e q) (j : DieId) :
    (q.dieOf j).unarmed = (p.dieOf j).unarmed := by
  obtain ⟨u, hu, rfl⟩ := h
  exact (hu.unarmed_eq j).symm

theorem consumed_eq (h : p.Apart i d e q) (j : DieId) :
    (q.dieOf j).consumed = (p.dieOf j).consumed :=
  Die.consumed_of_unarmed (h.unarmed_eq j)

theorem ne_of_unconsumed (h : p.Apart i d e q) (hj : (p.dieOf j).consumed = false) : j ≠ i := by
  obtain ⟨u, hu, rfl⟩ := h
  rintro rfl
  have hready : p.tray.ready j = true := Tray.ready_iff.mpr hj
  rw [hu.not_ready] at hready
  cases hready

theorem locate_eq (h : p.Apart i d e q) (ref : DieRef) : q.locate ref = p.locate ref := by
  cases ref with
  | slot k => simp only [locate, h.books_eq.1]
  | die j =>
    have hshown : (q.dieOf j).shown = (p.dieOf j).shown := Die.shown_of_unarmed (h.unarmed_eq j)
    simp only [locate, h.books_eq.1, hshown]

theorem set (h : p.Apart i d e q) (hj : j ≠ i) (f : Die) (chance : σ) :
    Apart i d e { p with tray := p.tray.set j f, chance } { q with tray := q.tray.set j f, chance } := by
  obtain ⟨u, hu, rfl⟩ := h
  exact ⟨_, hu.set hj f, rfl⟩

theorem spend (h : p.Apart i d e q) (hj : j ≠ i) : (p.spend j).Apart i d e (q.spend j) := by
  obtain ⟨u, hu, rfl⟩ := h
  have hslot : (u.get j).slot = (p.tray.get j).slot := congrArg Die.slot (hu.other j hj).symm
  have htray := hu.modify hj fun d => { d with consumed := true }
  unfold Play.spend markFired modifyDie dieOf
  simp only [hslot]
  split <;> exact ⟨_, htray, rfl⟩

theorem regain (h : p.Apart i d e q) (hj : j ≠ i) (inScene : Bool) :
    (p.regain j inScene).Apart i d e (q.regain j inScene) := by
  obtain ⟨u, hu, rfl⟩ := h
  have hslot : (u.get j).slot = (p.tray.get j).slot := congrArg Die.slot (hu.other j hj).symm
  have htray := hu.modify hj fun d => { d with consumed := false }
  unfold Play.regain unmarkFired modifyDie dieOf
  simp only [hslot]
  cases inScene <;> exact ⟨_, htray, rfl⟩

theorem fire (h : p.Apart i d e q) {source? : Option DieId} (hs : source? ≠ some i)
    (trigger : Trigger) :
    Same (Apart i d e) (p.fire trigger source?) (q.fire trigger source?) := by
  obtain ⟨u, hu, rfl⟩ := h
  obtain ⟨hanswer, htray⟩ := Stage.fire_apart (g := ⟨p.scene, p.hand.dice⟩) hu hs trigger
  exact ⟨hanswer, _, htray, rfl⟩

theorem settle (h : p.Apart i d e q) {due : Due} (hd : ∀ on, due ≠ .dispatch on (some i)) :
    Same (Apart i d e) (due.settle p) (due.settle q) := by
  cases due with
  | nothing => exact ⟨rfl, h⟩
  | restored was => exact ⟨rfl, h⟩
  | dispatch on source? => exact (h.fire (fun he => hd on (he ▸ rfl)) on).map _

end

end Apart

end Play

namespace Move

variable {m : Move σ} {p q : Play σ} {i : DieId} {d e : Die}

open Outcome

/-- Both books go alike, and no dispatch from the die is due. -/
def BooksApart (i : DieId) (d e : Die) (o o' : Outcome (Play σ) Due) : Prop :=
  Same (Play.Apart i d e) o o' ∧ ∀ on, o.answer ≠ .ok (.dispatch on (some i))

omit [Generator σ] in
theorem booksApart_of_ne {answer : Except Failure Due} (h : p.Apart i d e q)
    (ha : ∀ on, answer ≠ .ok (.dispatch on (some i))) : BooksApart i d e ⟨answer, p⟩ ⟨answer, q⟩ :=
  ⟨⟨rfl, h⟩, ha⟩

theorem booksApart_reroll (h : p.Apart i d e q) (ref : DieRef) :
    BooksApart i d e ((reroll ref : Move σ).books p) ((reroll ref : Move σ).books q) := by
  simp only [books, h.locate_eq, h.consumed_eq, h.books_eq.2.2]
  split
  · exact booksApart_of_ne h (by simp)
  next j hl =>
    split
    · exact booksApart_of_ne h (by simp)
    next hc =>
      have hne : j ≠ i := h.ne_of_unconsumed (Bool.eq_false_iff.mpr hc)
      rw [h.other hne]
      split
      · obtain ⟨u, hu, rfl⟩ := h
        exact booksApart_of_ne ⟨u, hu, rfl⟩ (by simp)
      · refine booksApart_of_ne (h.set hne _ _) fun on he => ?_
        cases he
        exact hne rfl

theorem booksApart_consume (h : p.Apart i d e q) (ref : DieRef) :
    BooksApart i d e ((consume ref : Move σ).books p) ((consume ref : Move σ).books q) := by
  simp only [books, h.locate_eq, h.consumed_eq, h.books_eq.1]
  split
  · exact booksApart_of_ne h (by simp)
  next j hl =>
    cases hc : (p.dieOf j).consumed with
    | true => exact booksApart_of_ne h (by simp)
    | false =>
      have hne : j ≠ i := h.ne_of_unconsumed hc
      rw [h.other hne]
      split
      · exact booksApart_of_ne h (by simp)
      · refine booksApart_of_ne (h.spend hne) fun on he => ?_
        cases he
        exact hne rfl

theorem booksApart_restore (h : p.Apart i d e q) {ref : DieRef} {inScene : Bool}
    (hm : (Event.mk p (restore ref inScene)).rouses i = false) :
    BooksApart i d e ((restore ref inScene : Move σ).books p)
      ((restore ref inScene : Move σ).books q) := by
  simp only [books, h.locate_eq, h.consumed_eq]
  cases hl : p.locate ref with
  | error f => exact booksApart_of_ne h (by simp)
  | ok j =>
    have hne : j ≠ i := by simpa [Event.rouses, hl] using hm
    dsimp only
    split
    · exact booksApart_of_ne (h.regain hne inScene) (by simp)
    · exact booksApart_of_ne h (by simp)

/-- The books of a move that leaves a consumed die alone do not read its affixes. -/
theorem books_apart (h : p.Apart i d e q) (hm : (Event.mk p m).rouses i = false) :
    BooksApart i d e (m.books p) (m.books q) := by
  cases m with
  | rollHand dice =>
    cases hd : dice.isEmpty with
    | true =>
      simp only [books, hd]
      exact booksApart_of_ne h (by simp)
    | false =>
      have hs : ¬ (dice.length : Int) ≤ p.hand.maxSize := by
        simpa [Event.rouses, starts, hd] using hm
      simp only [books, hd, checkSize_eq, h.books_eq.1, hs]
      exact booksApart_of_ne h (by simp)
  | setHand dice inScene =>
    have hs : ¬ (dice.length : Int) ≤ p.hand.maxSize := by simpa [Event.rouses, starts] using hm
    simp only [books, checkSize_eq, h.books_eq.1, hs]
    exact booksApart_of_ne h (by simp)
  | reroll ref => exact booksApart_reroll h ref
  | consume ref => exact booksApart_consume h ref
  | restore ref inScene => exact booksApart_restore h hm
  | resetTurn inScene => cases hm
  | trigger on source? =>
    refine booksApart_of_ne h fun on he => ?_
    cases he
    simp [Event.rouses] at hm
  | supply scene chance =>
    obtain ⟨u, hu, rfl⟩ := h
    exact booksApart_of_ne ⟨u, hu, rfl⟩ (by simp)

theorem play_apart (h : p.Apart i d e q) (hm : (Event.mk p m).rouses i = false) :
    Same (Play.Apart i d e) (m.play p) (m.play q) := by
  obtain ⟨⟨hanswer, hbooks⟩, hdue⟩ := books_apart h hm
  rw [play_eq, play_eq]
  generalize m.books p = o at hanswer hbooks hdue ⊢
  generalize m.books q = o' at hanswer hbooks ⊢
  obtain ⟨answer, r⟩ := o
  obtain ⟨answer', r'⟩ := o'
  obtain rfl : answer = answer' := hanswer
  cases answer with
  | error f => exact ⟨rfl, hbooks⟩
  | ok due => exact Play.Apart.settle hbooks fun on he => hdue on (congrArg Except.ok he)

theorem not_mem_called (h : p.Apart i d e q) (hm : (Event.mk p m).rouses i = false) :
    i ∉ (Event.mk p m).called := by
  obtain ⟨⟨-, u, hu, -⟩, hdue⟩ := books_apart h hm
  unfold Event.called
  dsimp only
  split
  next on source? ha =>
    refine Stage.not_mem_sources hu fun he => ?_
    subst he
    exact hdue on ha
  next => exact List.not_mem_nil

end Move

namespace Play

variable {p q : Play σ} {i : DieId} {d e : Die}

theorem after_apart (h : p.Apart i d e q) {ms : List (Move σ)}
    (hms : ∀ f ∈ p.history ms, f.rouses i = false) :
    (p.after ms).Apart i d e (q.after ms) ∧ (∀ f ∈ p.history ms, i ∉ f.called) ∧
      (q.history ms).map (·.outcome.answer) = (p.history ms).map (·.outcome.answer) := by
  induction ms generalizing p q with
  | nil => exact ⟨h, fun f hf => absurd hf List.not_mem_nil, rfl⟩
  | cons m ms ih =>
    obtain ⟨hm, hrest⟩ := List.forall_mem_cons.mp hms
    obtain ⟨hanswer, hplay⟩ := Move.play_apart h hm
    obtain ⟨hafter, hcalled, hanswers⟩ := ih hplay hrest
    exact ⟨hafter, List.forall_mem_cons.mpr ⟨Move.not_mem_called h hm, hcalled⟩,
      congrArg₂ List.cons hanswer.symm hanswers⟩

end Play

/-- As long as no move restores it, resets the turn, begins a new hand or dispatches from it, a
consumed die stays as it is. Its affixes are not called: whichever it carries, the moves give the
same answers, failures included, and leave all else the same. -/
theorem consumed_die_is_inert {p : Play σ} {i : DieId} (hc : (p.dieOf i).consumed = true)
    {ms : List (Move σ)} (hms : ∀ e ∈ p.history ms, e.rouses i = false) :
    (p.after ms).dieOf i = p.dieOf i ∧ (∀ e ∈ p.history ms, i ∉ e.called) ∧
      ∀ (inherent granted : List Affix) (incomplete : Bool),
        let q := p.rearm i inherent granted incomplete
        (q.history ms).map (·.outcome.answer) = (p.history ms).map (·.outcome.answer) ∧
          (p.after ms).Apart i (p.dieOf i) (q.dieOf i) (q.after ms) := by
  have hrun (inherent granted : List Affix) (incomplete : Bool) :=
    Play.after_apart (Play.apart_rearm hc inherent granted incomplete) hms
  obtain ⟨hafter, hcalled, -⟩ := hrun [] [] false
  refine ⟨hafter.left, hcalled, fun inherent granted incomplete => ?_⟩
  obtain ⟨happart, -, hanswers⟩ := hrun inherent granted incomplete
  exact ⟨hanswers, by simpa [Play.rearm, Play.dieOf] using happart⟩

/-- A used die among neighbors whose affixes aim at all dice, one of them in vain. -/
theorem consumed_die_is_inert_among_neighbors :
    let spark (trigger : Trigger) (value : Float) : Affix :=
      { name := "Spark", trigger, selector := .all, effect := { kind := .flatBonus, value } }
    let p : Play Script :=
      { tray :=
          { cells :=
              [(0, { inherent := [spark .onRoll 1, spark .onUse (0 / 0)] }),
                (1, { inherent := [spark .onRoll 2, spark .onUse 2] }), (2, {})]
            next := 3 }
        hand := {}, scene := {}, chance := { draws := [0.5] } }
    let q := p.after [.rollHand [0, 1, 2], .consume (.slot 1)]
    let ms : List (Move Script) :=
      [.consume (.slot 1), .reroll (.slot 1), .reroll (.slot 0), .trigger .onUse (some 5),
        .trigger .onRoll none, .consume (.slot 0), .restore (.slot 0) true, .rollHand []]
    (q.dieOf 4).consumed = true ∧ (∀ e ∈ q.history ms, e.rouses 4 = false) ∧
      (q.history ms).map (·.outcome.answer.isOk) =
        [true, true, true, true, true, false, true, false] ∧
      (q.after ms).dieOf 4 = q.dieOf 4 ∧ (q.after ms).dieOf 5 ≠ q.dieOf 5 := by
  intro spark p q ms
  have hc : (q.dieOf 4).consumed = true := by decide +kernel
  have hms : ∀ e ∈ q.history ms, e.rouses 4 = false := by decide +kernel
  exact ⟨hc, hms, by decide +kernel, (consumed_die_is_inert hc hms).1, by decide +kernel⟩

end AffixRules
