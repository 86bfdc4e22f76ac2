import AffixRules.Proofs.Dispatch.Notes
import Mathlib.Data.List.Basic

/-! A compound affix is the sequence of its parts. No part moves a die to another slot or uses it,
so the targets found at the start are those that each part finds for itself. -/
namespace AffixRules

namespace Affix

/-- A sub-effect as an affix of its own, with the targets of the affix unless it has others. -/
def part (a : Affix) (s : SubEffect) : Affix :=
  { name := a.name, effect := s.toEffect, selector := s.target?.getD a.selector
    condition? := s.condition? }

/-- The affix without its sub-effects, and then each sub-effect by itself. -/
def parts (a : Affix) : List Affix := { a with subEffects := [] } :: a.subEffects.map a.part

end Affix

theorem Tray.targets_congr {t u : Tray} (h : ∀ i, (u.get i).outline = (t.get i).outline)
    (hand : List DieId) (source : DieId) (selector : TargetSelector) :
    u.targets hand source selector = t.targets hand source selector := by
  have hready : u.ready = t.ready := by
    funext i
    simp only [ready, Die.consumed_of_outline (h i)]
  exact targets_eq_of_slots (fun i => Die.slot_of_outline (h i)) hready hand source selector

namespace Board

/-- The board with these names in its report. -/
def naming (b : Board) (names : List Label) : Board :=
  { b with report := { b.report with fired := names } }

variable {α : Type} {step : Board → Outcome Board α} {b : Board}

/-- A step that names nothing takes no notice of the names. -/
theorem Noting.naming (h : Noting b.tray [] step) (names : List Label) :
    step (b.naming names) = ⟨(step b).answer, (step b).state.naming names⟩ := by
  obtain ⟨answer, u, notes, hfired, hs⟩ := h
  have hstep : step b = ⟨answer, ⟨u, b.report.extend notes⟩⟩ := hs b.report
  have hnamed : step (b.naming names) =
      ⟨answer, ⟨u, ({ b.report with fired := names } : Report).extend notes⟩⟩ := hs _
  rw [hstep, hnamed]
  simp [Board.naming, Report.extend_eq, List.sublist_nil.mp hfired]

end Board

/-- What steps by themselves do beside the same steps in one affix: the same in every respect,
except that the name is noted each time one of them fires. -/
def InParts (name : Label) (names : List Label) (whole : Outcome Board Bool)
    (parts : Outcome Board Unit) : Prop :=
  ∃ k, parts = ⟨whole.answer.map fun _ => (),
      whole.state.naming (names ++ List.replicate k name)⟩ ∧
    ∀ fired, whole.answer = .ok fired → (fired = true ↔ k ≠ 0)

theorem InParts.andThen {name : Label} {names : List Label} {whole : Outcome Board Bool}
    {parts : Outcome Board Unit} {next : Board → Outcome Board Bool}
    {nextParts : Board → Outcome Board Unit} (h : InParts name names whole parts)
    (hn : ∀ more, InParts name more (next whole.state) (nextParts (whole.state.naming more))) :
    InParts name names (whole.andThen fun fired c => (next c).map (fired || ·))
      (parts.andThen fun _ => nextParts) := by
  obtain ⟨k, rfl, hk⟩ := h
  obtain ⟨answer, c⟩ := whole
  cases answer with
  | error e => exact ⟨k, rfl, fun _ h => by cases h⟩
  | ok fired =>
    have hnext : InParts name (names ++ List.replicate k name) (next c)
      (nextParts (c.naming (names ++ List.replicate k name))) := hn _
    obtain ⟨j, hparts, hj⟩ := hnext
    refine ⟨k + j, ?_, fun any hany => ?_⟩
    · simp only [Outcome.andThen, Outcome.map, Except.map, hparts, List.append_assoc,
        List.replicate_append_replicate]
      cases (next c).answer <;> rfl
    · obtain ⟨more, hmore, rfl⟩ := Outcome.exists_of_map_ok hany
      rw [Bool.or_eq_true, hk fired rfl, hj more hmore]
      omega

/-- Noting the name once closes the affix. -/
theorem InParts.note {name : Label} {b : Board} {effects : Outcome Board Bool}
    {parts : Outcome Board Unit} (h : InParts name b.report.fired effects parts)
    (hfired : effects.state.report.fired = b.report.fired) :
    let whole := effects.andThen (Board.note name)
    whole.answer = parts.answer ∧ whole.state.tray = parts.state.tray ∧
      whole.state.report.special = parts.state.report.special ∧
      whole.state.report.changes = parts.state.report.changes ∧
      ∃ k, parts.state.report.fired = b.report.fired ++ List.replicate k name ∧
        (whole.answer = .ok () →
          whole.state.report.fired = b.report.fired ++ if k = 0 then [] else [name]) := by
  obtain ⟨k, rfl, hk⟩ := h
  obtain ⟨answer, c⟩ := effects
  cases answer with
  | error e => exact ⟨rfl, rfl, rfl, rfl, k, rfl, fun h => by cases h⟩
  | ok any =>
    have hany : any = true ↔ k ≠ 0 := hk any rfl
    cases any with
    | false =>
      have hnone : k = 0 := by simpa using hany
      refine ⟨rfl, rfl, rfl, rfl, k, rfl, fun _ => ?_⟩
      rw [if_pos hnone, List.append_nil]
      exact hfired
    | true =>
      have hsome : k ≠ 0 := by simpa using hany
      refine ⟨rfl, rfl, rfl, rfl, k, rfl, fun _ => ?_⟩
      rw [if_neg hsome, ← hfired]
      rfl

namespace Stage

variable (g : Stage) (source : DieId)

open Board

/-- An affix of one effect notes its name exactly when the effect fires. -/
theorem inParts_applyAffix {a : Affix} (ha : a.subEffects = []) {b : Board} {v : Verdict}
    (hv : Condition.evaluate? a.condition? (g.view source b) = .ok v) (names : List Label) :
    InParts a.name names
      (g.applyEffect source a.name a.effect v (b.tray.targets g.hand source a.selector) b)
      (g.applyAffix source a (b.naming names)) := by
  have hnoting : Noting b.tray [] (g.applyEffect source a.name a.effect v
      (b.tray.targets g.hand source a.selector)) := g.applyEffect_noting source a.name a.effect v _
  have hs : g.applyAffix source a (b.naming names) =
      (g.applyEffect source a.name a.effect v (b.tray.targets g.hand source a.selector)
        (b.naming names)).andThen (note a.name) := by
    have hview : g.view source (b.naming names) = g.view source b := rfl
    simp only [applyAffix, hview, hv, ha, applySubEffects, Outcome.andThen_done, Bool.or_false]
    rfl
  rw [hs, hnoting.naming]
  obtain ⟨answer, c⟩ := g.applyEffect source a.name a.effect v
    (b.tray.targets g.hand source a.selector) b
  cases answer with
  | error e => exact ⟨0, by simp [Outcome.andThen, Except.map], fun _ h => by cases h⟩
  | ok fired =>
    cases fired with
    | false =>
      exact ⟨0, by simp [Outcome.andThen, Except.map, Outcome.done, note],
        fun _ h => by cases h; simp⟩
    | true =>
      exact ⟨1, by simp [Outcome.andThen, Except.map, Outcome.done, note, naming, Report.name],
        fun _ h => by cases h; simp⟩

theorem inParts_failed {a : Affix} {b : Board} {e : Failure}
    (hv : Condition.evaluate? a.condition? (g.view source b) = .error e) (names : List Label) :
    InParts a.name names (.failed e b) (g.applyAffix source a (b.naming names)) := by
  have hview : g.view source (b.naming names) = g.view source b := rfl
  exact ⟨0, by simp [applyAffix, hview, hv, Outcome.failed, Except.map], fun _ h => by cases h⟩

theorem inParts_applySubEffect {a : Affix} {s : SubEffect} {parent : Verdict}
    (hs : s.condition?.isSome ∨ parent = .passed) (b : Board) (names : List Label) :
    InParts a.name names
      (g.applySubEffect source a.name parent (b.tray.targets g.hand source a.selector) s b)
      (g.applyAffix source (a.part s) (b.naming names)) := by
  have hverdict : s.verdict parent (g.view source b) =
      Condition.evaluate? s.condition? (g.view source b) := by
    cases hc : s.condition? with
    | some c => simp only [SubEffect.verdict, Condition.evaluate?, hc]
    | none =>
      have hparent : parent = .passed := hs.resolve_left (by simp [hc])
      simp only [SubEffect.verdict, Condition.evaluate?, hc, hparent]
  have htargets : g.targetsOf source s (b.tray.targets g.hand source a.selector) b.tray =
      b.tray.targets g.hand source (a.part s).selector := by
    cases ht : s.target? <;> simp [targetsOf, Affix.part, ht]
  rw [applySubEffect_eq, hverdict, htargets]
  cases hv : Condition.evaluate? s.condition? (g.view source b) with
  | error e => exact g.inParts_failed source (a := a.part s) hv names
  | ok v => exact g.inParts_applyAffix source (a := a.part s) rfl hv names

theorem inParts_applySubEffects {a : Affix} {subs : List SubEffect} {parent : Verdict}
    (hs : ∀ s ∈ subs, s.condition?.isSome ∨ parent = .passed) (b : Board) {targets : List DieId}
    (ht : targets = b.tray.targets g.hand source a.selector) (names : List Label) :
    InParts a.name names (g.applySubEffects source a.name parent targets subs b)
      (Outcome.forEach (g.applyAffix source) (subs.map a.part) (b.naming names)) := by
  induction subs generalizing b names with
  | nil => exact ⟨0, by simp [applySubEffects, Outcome.forEach, Outcome.done, Except.map],
      fun _ h => by cases h; simp⟩
  | cons s rest ih =>
    obtain ⟨hfirst, hrest⟩ := List.forall_mem_cons.mp hs
    subst ht
    rw [Stage.applySubEffects_cons]
    refine (g.inParts_applySubEffect source hfirst b names).andThen fun more => ?_
    -- no part moves or uses a die, so the targets found at the start stay what they are
    have hbecomes : Becomes (fun _ => True) b (g.applySubEffect source a.name parent
        (b.tray.targets g.hand source a.selector) s b).state :=
      g.applySubEffect_becomes source a.name parent (fun _ _ => trivial) s fun _ _ => trivial
    exact ih hrest _ (Tray.targets_congr hbecomes.outline_eq _ _ _).symm more

end Stage

/-- An affix whose sub-effects each have a gate of their own, or which has no gate itself, answers,
fails, changes dice and reports effects and changes of value as its parts one after the other. Its
name is noted once where one of the parts notes it, and each of these does so at most once. -/
theorem compound_affix_eq_parts (g : Stage) (source : DieId) (a : Affix) (b : Board)
    (ha : (∀ s ∈ a.subEffects, s.condition?.isSome) ∨ a.condition? = none) :
    let whole := g.applyAffix source a b
    let parts := Outcome.forEach (g.applyAffix source) a.parts b
    whole.answer = parts.answer ∧ whole.state.tray = parts.state.tray ∧
      whole.state.report.special = parts.state.report.special ∧
      whole.state.report.changes = parts.state.report.changes ∧
      ∃ k, parts.state.report.fired = b.report.fired ++ List.replicate k a.name ∧
        (whole.answer = .ok () →
          whole.state.report.fired = b.report.fired ++ if k = 0 then [] else [a.name]) := by
  intro whole parts
  cases hv : Condition.evaluate? a.condition? (g.view source b) with
  | error e =>
    have hwhole : whole = .failed e b := by simp [whole, Stage.applyAffix, hv]
    have hparts : parts = .failed e b := by
      simp [parts, Outcome.forEach, Affix.parts, Stage.applyAffix, hv]
    rw [hwhole, hparts]
    exact ⟨rfl, rfl, rfl, rfl, 0, by simp [Outcome.failed], fun h => by cases h⟩
  | ok v =>
    have hs : ∀ s ∈ a.subEffects, s.condition?.isSome ∨ v = .passed := by
      intro s hs
      refine ha.imp (fun h => h s hs) fun hnone => ?_
      simpa [Condition.evaluate?, hnone, eq_comm] using hv
    let targets := b.tray.targets g.hand source a.selector
    let all := g.applyEffects source a v b
    have hinParts : InParts a.name b.report.fired all parts := by
      refine (g.inParts_applyAffix source (a := { a with subEffects := [] }) rfl hv
        b.report.fired).andThen fun more => ?_
      have hbecomes : Board.Becomes (fun _ => True) b
          (g.applyEffect source a.name a.effect v targets b).state :=
        g.applyEffect_becomes source a.name a.effect v (fun _ _ => trivial) b
      exact g.inParts_applySubEffects source hs _
        (Tray.targets_congr hbecomes.outline_eq _ _ _).symm more
    have hfired : all.state.report.fired = b.report.fired :=
      (g.applyEffects_noting source a v).fired_eq b.report
    have hwhole : whole = all.andThen (Board.note a.name) := by
      simp only [whole, all, Stage.applyAffix_eq, hv]
    rw [hwhole]
    exact hinParts.note hfired

/-- The first effect raises the source to where the gate of the next one opens. Two of the parts
fire, and the affix notes its name once. -/
theorem compound_affix_eq_parts_with_gate_opened_by_earlier_part :
    let above (threshold : Float) : Condition := { kind := .selfValueAbove, threshold }
    let a : Affix :=
      { name := "Cascade", effect := { kind := .flatBonus, value := 2 }
        condition? := some (above 2)
        subEffects :=
          [{ kind := .setMinimum, value := 6, target? := some .right
             condition? := some (above 4) },
            { kind := .leechHeal, payload := .leech 0.5, condition? := some (above 6) }] }
    let t : Tray := { cells := [(0, { slot := 0, value := 3 }), (1, { slot := 1, value := 4 })]
                      next := 2 }
    let g : Stage := { scene := {}, hand := [0, 1] }
    let whole := g.applyAffix 0 a { tray := t }
    let parts := Outcome.forEach (g.applyAffix 0) a.parts { tray := t }
    whole.answer = .ok () ∧ parts.answer = .ok () ∧ whole.state.tray = parts.state.tray ∧
      parts.state.report.changes = [(0, 2), (1, 2)] ∧
      whole.state.report.changes = [(0, 2), (1, 2)] ∧
      parts.state.report.fired = [a.name, a.name] ∧ whole.state.report.fired = [a.name] := by
  intro above a t g whole parts
  have ha : (∀ s ∈ a.subEffects, s.condition?.isSome) ∨ a.condition? = none := .inl (by decide)
  obtain ⟨hanswer, htray, -, hchanges, k, hparts, hwhole⟩ :=
    compound_affix_eq_parts g 0 a { tray := t } ha
  have hok : parts.answer = .ok () := by decide +kernel
  have hmoved : parts.state.report.changes = [(0, 2), (1, 2)] := by decide +kernel
  have htwice : parts.state.report.fired = [a.name, a.name] := by decide +kernel
  have hsome : k ≠ 0 := by
    rintro rfl
    exact absurd (htwice.symm.trans hparts) (by simp)
  refine ⟨hanswer.trans hok, hok, htray, hmoved, hchanges.trans hmoved, htwice, ?_⟩
  simpa [hsome] using hwhole (hanswer.trans hok)

end AffixRules
