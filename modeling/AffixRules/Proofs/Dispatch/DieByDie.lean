import AffixRules.Proofs.Dispatch.Notes
import Mathlib.Data.List.Basic

/-! A dispatch over the whole hand is the dispatches of its dice one by one, their reports merged in
hand order. Merging drops changes of zero, so the two reports agree in the net change of each
slot. -/
namespace AffixRules

namespace Report

/-- What notes add up to for a slot. -/
def net (notes : List (Int × Int)) (slot : Int) : Int :=
  notes.foldr (fun note n => (if note.1 = slot then note.2 else 0) + n) 0

theorem value_noted (changes : Entries Int Int) (notes : List (Int × Int)) (slot : Int) :
    ((noted changes notes).value? slot).getD 0 = (changes.value? slot).getD 0 + net notes slot := by
  induction notes generalizing changes with
  | nil => simp [noted, net]
  | cons note notes ih =>
    obtain ⟨other, delta⟩ := note
    have hrecord := change_record { changes } other delta slot
    simp only [change] at hrecord
    have hnoted : noted changes ((other, delta) :: notes) =
        noted (record { changes } other delta).changes notes := rfl
    rw [hnoted, ih, hrecord]
    simp [net, Int.add_assoc]

theorem nodup_keys_noted {changes : Entries Int Int} (h : changes.keys.Nodup)
    (notes : List (Int × Int)) : (noted changes notes).keys.Nodup := by
  induction notes generalizing changes with
  | nil => exact h
  | cons note notes ih =>
    obtain ⟨slot, delta⟩ := note
    have hone : (record { changes } slot delta).changes.keys.Nodup := by
      unfold record
      split
      · exact h
      · exact Entries.nodup_keys_put h _ _
    exact ih hone

theorem net_of_nodup {changes : Entries Int Int} (h : changes.keys.Nodup) (slot : Int) :
    net changes slot = (changes.value? slot).getD 0 := by
  induction changes with
  | nil => rfl
  | cons e es ih =>
    obtain ⟨k, delta⟩ := e
    obtain ⟨hk, hes⟩ := List.nodup_cons.mp h
    have hcons : net ((k, delta) :: es) slot = (if k = slot then delta else 0) + net es slot := by
      simp [net]
    rw [hcons, ih hes]
    by_cases hslot : k = slot
    · have habsent : Entries.value? es slot = none := Entries.value?_eq_none_iff.mpr (hslot ▸ hk)
      simp [Entries.value?, hslot, habsent]
    · simp [Entries.value?, hslot]

/-- Two reports of the same effects, the same names and the same net change of each slot. -/
structure Alike (r s : Report) : Prop where
  special : r.special = s.special
  fired : r.fired = s.fired
  change : ∀ slot, r.change slot = s.change slot

variable {r s : Report}

/-- Notes taken at once and notes first made into a report of their own come to the same. -/
theorem Alike.extend (h : r.Alike s) (notes : Report) :
    (r.extend notes).Alike (s.extend (({} : Report).extend notes)) where
  special := by simp [extend_eq, h.special]
  fired := by simp [extend_eq, h.fired]
  change := by
    intro slot
    have hstart := h.change slot
    have hempty : (Entries.keys ([] : Entries Int Int)).Nodup := List.nodup_nil
    have hown : net (noted [] notes.changes) slot = net notes.changes slot := by
      rw [net_of_nodup (nodup_keys_noted hempty _), value_noted]
      simp
    simp only [Report.change] at hstart
    simp only [extend_eq, Report.change, value_noted, List.nil_append, hown, hstart]

end Report

theorem Die.namesOn_of_outline {d e : Die} (h : d.outline = e.outline) (trigger : Trigger) :
    d.namesOn trigger = e.namesOn trigger := by
  change d.outline.namesOn trigger = e.outline.namesOn trigger
  rw [h]

namespace Stage

variable (g : Stage) (trigger : Trigger)

open Board

/-- The dispatch of one die by itself, its report put after what was reported before. -/
def fireMerging (source : DieId) (b : Board) : Outcome Board Unit :=
  let o := g.fire trigger (some source) b.tray
  match o.answer with
  | .ok r => .done () ⟨o.state, b.report.extend r⟩
  | .error e => .failed e ⟨o.state, b.report⟩

theorem fireMerging_eq {source : DieId} {t u : Tray} {answer : Except Failure Unit} {notes : Report}
    (h : ∀ r, g.fireDie trigger source ⟨t, r⟩ = ⟨answer, ⟨u, r.extend notes⟩⟩) (r : Report) :
    g.fireMerging trigger source ⟨t, r⟩ =
      match answer with
      | .ok () => .done () ⟨u, r.extend (({} : Report).extend notes)⟩
      | .error e => .failed e ⟨u, r⟩ := by
  cases answer with
  | error e => simp [fireMerging, fire, sources, Outcome.forEach, Outcome.andThen, h, Except.map]
  | ok a =>
    simp [fireMerging, fire, sources, Outcome.forEach, Outcome.andThen, h, Except.map, Outcome.done]

/-- The dice of a list at once and one by one, from reports that are alike. -/
theorem forEach_fireMerging (is : List DieId) {t : Tray} {r s : Report} (h : r.Alike s) :
    let whole := Outcome.forEach (g.fireDie trigger) is ⟨t, r⟩
    let merged := Outcome.forEach (g.fireMerging trigger) is ⟨t, s⟩
    whole.answer = merged.answer ∧ whole.state.tray = merged.state.tray ∧
      (whole.answer = .ok () → whole.state.report.Alike merged.state.report) := by
  induction is generalizing t r s with
  | nil => exact ⟨rfl, rfl, fun _ => h⟩
  | cons i is ih =>
    obtain ⟨answer, u, notes, -, hs⟩ := g.fireDie_noting (t := t) trigger i
    simp only [Outcome.forEach, hs, g.fireMerging_eq trigger hs]
    cases answer with
    | error e => exact ⟨rfl, rfl, fun hok => by cases hok⟩
    | ok a => exact ih (h.extend notes)

/-- The names noted by a dispatch of several dice are among those of their affixes at the start. -/
theorem forEach_fireDie_noting (is : List DieId) {t : Tray} :
    Noting t (is.flatMap fun i => (t.get i).namesOn trigger)
      (Outcome.forEach (g.fireDie trigger) is) := by
  induction is generalizing t with
  | nil => exact noting_done ()
  | cons i is ih =>
    rw [List.flatMap_cons]
    refine (g.fireDie_noting trigger i).andThen fun _ u r s hs => ?_
    have hbecomes : Becomes (fun _ => True) ⟨t, r⟩ (g.fireDie trigger i ⟨t, r⟩).state :=
      g.fireDie_becomes trigger i fun _ _ => trivial
    rw [hs] at hbecomes
    have hnames (j : DieId) : (u.get j).namesOn trigger = (t.get j).namesOn trigger :=
      Die.namesOn_of_outline (hbecomes.outline_eq j) trigger
    have hrest := ih (t := u)
    simpa only [hnames] using hrest

end Stage

/-- A dispatch of the whole hand changes the dice, answers or fails as the dispatches of the dice that
are unconsumed at its start do, one by one with their reports merged in hand order. The reports show
the same effects, the same names and the same net change of each slot; the names are some of those
of the affixes called, die by die, inherent ones first. -/
theorem hand_dispatch_eq_die_by_die (g : Stage) (trigger : Trigger) (t : Tray) :
    let ready := g.hand.filter t.ready
    let whole := g.fire trigger none t
    let merged := Outcome.forEach (g.fireMerging trigger) ready { tray := t }
    whole.state = merged.state.tray ∧ whole.answer.map (fun _ => ()) = merged.answer ∧
      ∀ r, whole.answer = .ok r →
        r.special = merged.state.report.special ∧ r.fired = merged.state.report.fired ∧
          (∀ slot, r.change slot = merged.state.report.change slot) ∧
          r.fired.Sublist (ready.flatMap fun i => (t.get i).namesOn trigger) := by
  intro ready whole merged
  let o := Outcome.forEach (g.fireDie trigger) ready { tray := t }
  obtain ⟨hanswer, htray, halike⟩ :=
    g.forEach_fireMerging trigger ready (t := t) (r := {}) (s := {}) ⟨rfl, rfl, fun _ => rfl⟩
  have hwhole : whole = ⟨o.answer.map fun _ => o.state.report, o.state.tray⟩ := rfl
  refine ⟨htray, ?_, fun r hr => ?_⟩
  · rw [hwhole, ← hanswer]
    cases o.answer <;> rfl
  · have hok : o.answer = .ok () ∧ o.state.report = r := by
      rw [hwhole] at hr
      cases ho : o.answer with
      | error e => simp [ho, Except.map] at hr
      | ok a => simpa [ho, Except.map] using hr
    obtain ⟨answer, u, notes, hfired, hnotes⟩ := g.forEach_fireDie_noting trigger ready (t := t)
    have hreport : r = ({} : Report).extend notes := by
      rw [← hok.2]
      simp only [o, hnotes]
    have hsame := halike hok.1
    rw [hok.2] at hsame
    refine ⟨hsame.special, hsame.fired, hsame.change, ?_⟩
    rw [hreport, Report.extend_eq]
    exact hfired

/-- Two bonuses that cancel leave a change of zero in the one report and none in the merged one; a
consumed die fires nothing, and a later die reads what an earlier one changed. -/
theorem hand_dispatch_eq_die_by_die_with_cancelled_change :
    let bonus (name : Label) (value : Float) : Affix :=
      { name, trigger := .onTurnStart, effect := { kind := .flatBonus, value } }
    let surge : Affix :=
      { bonus "Surge" 1 with
        selector := .allExceptSource
        condition? := some { kind := .selfValueAbove, threshold := 4 } }
    let t : Tray :=
      { cells :=
          [(0, { slot := 0, value := 3, inherent := [bonus "Ebb" (-2)]
                 granted := [bonus "Flow" 2] }),
            (1, { slot := 1, consumed := true, inherent := [bonus "Spent" 1] }),
            (2, { slot := 2, value := 4, granted := [bonus "Swell" 1.5, surge] })]
        next := 3 }
    let g : Stage := { scene := {}, hand := [0, 1, 2] }
    let merged := Outcome.forEach (g.fireMerging .onTurnStart) [0, 2] { tray := t }
    ∃ r, (g.fire .onTurnStart none t).answer = .ok r ∧ r.changes = [(0, 1), (2, 1)] ∧
      merged.state.report.changes = [(2, 1), (0, 1)] ∧
      r.fired = merged.state.report.fired ∧ r.change 0 = merged.state.report.change 0 ∧
      r.fired.Sublist ["Ebb", "Flow", "Swell", "Surge"] := by
  intro bonus surge t g merged
  have hok : (g.fire .onTurnStart none t).answer = .ok
      { fired := ["Ebb", "Flow", "Swell", "Surge"], changes := [(0, 1), (2, 1)] } := by
    decide +kernel
  obtain ⟨-, -, hreport⟩ := hand_dispatch_eq_die_by_die g .onTurnStart t
  obtain ⟨-, hfired, hchange, hnames⟩ := hreport _ hok
  exact ⟨_, hok, rfl, by decide +kernel, hfired, hchange 0, hnames⟩

end AffixRules
