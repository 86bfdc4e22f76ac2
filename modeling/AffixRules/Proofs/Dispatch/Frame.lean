import AffixRules.Proofs.Dispatch.FlatBonus
import AffixRules.Proofs.Dispatch.Parts

/-! What the dispatch of an affix leaves alone. The scene and the hand are only read. Of the dice,
those that no firing effect targets stay as they are, and the others keep all but their working value,
tags and element; the report is only extended. This holds of a dispatch that fails midway too. -/
namespace AffixRules

namespace Report

variable (r : Report) (slot delta : Int)

theorem special_record : (r.record slot delta).special = r.special := by
  unfold record
  split <;> rfl

theorem fired_record : (r.record slot delta).fired = r.fired := by
  unfold record
  split <;> rfl

end Report

namespace Board

variable {reached : DieId → Prop} {b c : Board}

theorem Change.report_prefix (h : Change reached b c) :
    b.report.special <+: c.report.special ∧ b.report.fired <+: c.report.fired := by
  cases h with
  | emit e => exact ⟨List.prefix_append _ _, List.prefix_rfl⟩
  | name fired => exact ⟨List.prefix_rfl, List.prefix_append _ _⟩
  | write hi n =>
    simp only [writeValue, Report.special_record, Report.fired_record]
    exact ⟨List.prefix_rfl, List.prefix_rfl⟩
  | repaint hi f hf => exact ⟨List.prefix_rfl, List.prefix_rfl⟩

theorem Becomes.report_prefix (h : Becomes reached b c) :
    b.report.special <+: c.report.special ∧ b.report.fired <+: c.report.fired := by
  induction h with
  | refl => exact ⟨List.prefix_rfl, List.prefix_rfl⟩
  | tail _ hc ih =>
    obtain ⟨hspecial, hfired⟩ := hc.report_prefix
    exact ⟨ih.1.trans hspecial, ih.2.trans hfired⟩

end Board

namespace Stage

variable (g : Stage) (source : DieId) (a : Affix) (b : Board)

/-- A die that an effect of the affix is applied to. -/
def Struck (i : DieId) : Prop :=
  ∃ effect v targets c, g.Fires source a b effect v targets c ∧ i ∈ targets

variable {g source a b} {effect : Effect} {v parent : Verdict} {targets : List DieId} {c : Board}

open Board Outcome

theorem applyEffect_of_blocked (name : Label) (hblocked : v.blocked = true) :
    g.applyEffect source name effect v targets b = .done false b := by
  simp [applyEffect, hblocked]

theorem applyEffects_nil :
    g.applyEffects source { a with subEffects := [] } parent b =
      g.applyEffect source a.name a.effect parent (b.tray.targets g.hand source a.selector) b := by
  simp only [applyEffects, applySubEffects]
  generalize g.applyEffect source a.name a.effect parent _ b = o
  obtain ⟨answer, c⟩ := o
  cases answer with
  | error e => rfl
  | ok fired => simp [andThen, done, Outcome.map, Except.map]

theorem applyEffects_concat (before : List SubEffect) (s : SubEffect) :
    g.applyEffects source { a with subEffects := before ++ [s] } parent b =
      (g.applyEffects source { a with subEffects := before } parent b).andThen fun fired c =>
        (g.applySubEffect source a.name parent (b.tray.targets g.hand source a.selector) s c).map
          (fired || ·) := by
  have hsubs : ({ a with subEffects := before ++ [s] } : Affix).subEffects = before ++ [s] := rfl
  rw [applyEffects_append hsubs]
  simp only [applySubEffects, ← andThen_done_eq_map, andThen_assoc, andThen_done, Bool.or_false]

/-- What the application of each firing effect keeps, the effects of an affix keep, up to any of its
sub-effects; and if they tell that one fired, then one did. -/
theorem applyEffects_keeps {p : Board → Prop}
    (hparent : Condition.evaluate? a.condition? (g.view source b) = .ok parent) (hb : p b)
    (h : ∀ {effect v targets c}, g.Fires source a b effect v targets c → p c →
      p ((⟨g.scene, source, a.name, effect, v⟩ : Firing).apply targets c).state)
    {before : List SubEffect} (hbefore : before <+: a.subEffects) :
    p (g.applyEffects source { a with subEffects := before } parent b).state ∧
      ((g.applyEffects source { a with subEffects := before } parent b).answer = .ok true →
        ∃ effect v targets c, g.Fires source a b effect v targets c) := by
  have step {effect v targets c} (hc : p c)
      (hf : v.blocked = false → g.Fires source a b effect v targets c) :
      p (g.applyEffect source a.name effect v targets c).state ∧
        ((g.applyEffect source a.name effect v targets c).answer = .ok true →
          ∃ effect v targets c, g.Fires source a b effect v targets c) := by
    cases hv : v.blocked with
    | true =>
      rw [applyEffect_of_blocked a.name hv]
      exact ⟨hc, fun h => by cases h⟩
    | false =>
      rw [applyEffect_of_open a.name hv]
      exact ⟨h (hf hv) hc, fun _ => ⟨effect, v, targets, c, hf hv⟩⟩
  -- Induction from the front: what fires is told by the run of the sub-effects before it.
  induction before using List.reverseRecOn with
  | nil =>
    rw [applyEffects_nil]
    exact step hb fun hopen => .primary hparent hopen
  | append_singleton before s ih =>
    obtain ⟨rest, hrest⟩ := hbefore
    have hs : a.subEffects = before ++ s :: rest := by simp [← hrest]
    obtain ⟨hp, hfired⟩ := ih ⟨s :: rest, hs.symm⟩
    rw [applyEffects_concat]
    cases hrun : g.applyEffects source { a with subEffects := before } parent b with
    | mk answer c =>
      rw [hrun] at hp hfired
      cases answer with
      | error e => exact ⟨hp, fun h => by cases h⟩
      | ok fired =>
        have hsub : p (g.applySubEffect source a.name parent
              (b.tray.targets g.hand source a.selector) s c).state ∧
            ((g.applySubEffect source a.name parent
              (b.tray.targets g.hand source a.selector) s c).answer = .ok true →
              ∃ effect v targets c, g.Fires source a b effect v targets c) := by
          rw [applySubEffect_eq]
          cases hv : s.verdict parent (g.view source c) with
          | error e => exact ⟨hp, fun h => by cases h⟩
          | ok v => exact step hp fun hopen => .part hs hparent hrun hv hopen
        refine ⟨hsub.1, fun hany => ?_⟩
        obtain ⟨more, hmore, hor⟩ := exists_of_map_ok hany
        cases fired with
        | true => exact hfired rfl
        | false =>
          rw [Bool.false_or] at hor
          exact hsub.2 (hor ▸ hmore)

/-- All that an affix does, it does by changes of the dice that its firing effects target. -/
theorem applyAffix_becomes_struck :
    Becomes (g.Struck source a b) b (g.applyAffix source a b).state := by
  rw [applyAffix_eq]
  cases hparent : Condition.evaluate? a.condition? (g.view source b) with
  | error e => exact .refl
  | ok parent =>
    have happly {effect v targets c} (hf : g.Fires source a b effect v targets c)
        (hc : Becomes (g.Struck source a b) b c) : Becomes (g.Struck source a b) b
          ((⟨g.scene, source, a.name, effect, v⟩ : Firing).apply targets c).state :=
      hc.trans (Firing.apply_becomes _ (fun i hi => ⟨effect, v, targets, c, hf, hi⟩) c)
    have hall := (applyEffects_keeps hparent .refl happly List.prefix_rfl).1
    refine andThen_keeps (p := Becomes (g.Struck source a b) b) hall fun fired d hd => ?_
    cases fired with
    | true => exact hd.tail (.name a.name)
    | false => exact hd

theorem applyAffix_state_of_not_fires
    (h : ¬ ∃ effect v targets c, g.Fires source a b effect v targets c) :
    (g.applyAffix source a b).state = b := by
  rw [applyAffix_eq]
  cases hparent : Condition.evaluate? a.condition? (g.view source b) with
  | error e => rfl
  | ok parent =>
    obtain ⟨hstate, hfired⟩ := applyEffects_keeps (p := (· = b)) hparent rfl
      (fun hf _ => absurd ⟨_, _, _, _, hf⟩ h) List.prefix_rfl
    change ((g.applyEffects source a parent b).andThen (note a.name)).state = b
    change (g.applyEffects source a parent b).state = b at hstate
    change (g.applyEffects source a parent b).answer = .ok true → _ at hfired
    generalize g.applyEffects source a parent b = o at hstate hfired ⊢
    obtain ⟨answer, c⟩ := o
    cases answer with
    | error e => exact hstate
    | ok any =>
      cases any with
      | true => exact absurd (hfired rfl) h
      | false => exact hstate

theorem Fires.becomes (h : g.Fires source a b effect v targets c) :
    Becomes (fun _ => True) b c := by
  cases h with
  | primary => exact .refl
  | @part before rest s hs parent hparent fired _ hbefore =>
    have hkept : Becomes (fun _ => True) b
        (g.applyEffects source { a with subEffects := before } parent b).state :=
      (applyEffects_keeps hparent .refl
        (fun _ hd => hd.trans (Firing.apply_becomes _ (fun _ _ => trivial) _))
        ⟨s :: rest, hs.symm⟩).1
    rw [hbefore] at hkept
    exact hkept

/-- No slot is moved and no die is used before an effect comes to fire, so it finds the dice that its
selector finds at the start. -/
theorem Fires.targets_eq (h : g.Fires source a b effect v targets c) :
    ∃ selector, targets = b.tray.targets g.hand source selector ∧
      (effect = a.effect ∧ selector = a.selector ∨
        ∃ s ∈ a.subEffects, effect = s.toEffect ∧ selector = s.target?.getD a.selector) := by
  have hkept : Becomes (fun _ => True) b c := h.becomes
  cases h with
  | primary => exact ⟨a.selector, rfl, .inl ⟨rfl, rfl⟩⟩
  | @part before rest s hs parent hparent fired _ hbefore _ hv hopen =>
    have hmem : s ∈ a.subEffects := by simp [hs]
    refine ⟨s.target?.getD a.selector, ?_, .inr ⟨s, hmem, rfl, rfl⟩⟩
    unfold targetsOf
    cases s.target? with
    | none => rfl
    | some selector => exact Tray.targets_congr hkept.outline_eq g.hand source selector

/-- The effects before it note no name, whatever fires. -/
theorem Fires.fired_eq (h : g.Fires source a b effect v targets c) :
    c.report.fired = b.report.fired := by
  cases h with
  | primary => rfl
  | @part before rest s hs parent hparent fired _ hbefore _ hv hopen =>
    have hkept := (g.applyEffects_noting source { a with subEffects := before } parent
      (t := b.tray)).fired_eq b.report
    exact (congrArg (·.state.report.fired) hbefore).symm.trans hkept

theorem Fires.fired_applyAffix (h : g.Fires source a b effect v targets c)
    (hok : (g.applyAffix source a b).answer = .ok ()) :
    (g.applyAffix source a b).state.report.fired = b.report.fired ++ [a.name] := by
  obtain ⟨parent, rest, -, -, heq⟩ := h.applyAffix_eq
  rw [heq] at hok ⊢
  obtain ⟨u, -, hok, hfirst⟩ := exists_of_andThen_ok hok
  obtain ⟨any, -, -, hsecond⟩ := exists_of_andThen_ok hok
  rw [hfirst, hsecond]
  have happly : ((⟨g.scene, source, a.name, effect, v⟩ : Firing).apply targets c).state.report.fired =
      c.report.fired := (Firing.apply_noting _ targets).fired_eq c.report
  have hrest (d : Board) : (g.applySubEffects source a.name parent
      (b.tray.targets g.hand source a.selector) rest d).state.report.fired = d.report.fired :=
    (g.applySubEffects_noting source a.name parent _ rest).fired_eq d.report
  change (g.applySubEffects source a.name parent _ rest _).state.report.fired ++ [a.name] = _
  rw [hrest, happly, h.fired_eq]

end Stage

/-- Dispatching an affix writes the working value, the tags and the element of the dice that its firing
effects target, and nothing else of any die; the targets are those that the selectors find at the
start. The report is extended: by the name of the affix once if it completes and an effect has fired.
If none fires, the board stays as it is. -/
theorem dispatch_touches_only_targets (g : Stage) (source : DieId) (a : Affix) (b : Board) :
    let o := g.applyAffix source a b
    (∀ i, ∃ value tags element,
      o.state.tray.get i = { b.tray.get i with value, tags, element }) ∧
      (∀ i, ¬ g.Struck source a b i → o.state.tray.get i = b.tray.get i) ∧
      (∀ effect v targets c, g.Fires source a b effect v targets c →
        ∃ selector, targets = b.tray.targets g.hand source selector ∧
          (effect = a.effect ∧ selector = a.selector ∨
            ∃ s ∈ a.subEffects, effect = s.toEffect ∧ selector = s.target?.getD a.selector)) ∧
      b.report.special <+: o.state.report.special ∧ b.report.fired <+: o.state.report.fired ∧
      ((¬ ∃ effect v targets c, g.Fires source a b effect v targets c) → o.state = b) ∧
      ((∃ effect v targets c, g.Fires source a b effect v targets c) → o.answer = .ok () →
        o.state.report.fired = b.report.fired ++ [a.name]) := by
  intro o
  have hall : Board.Becomes (g.Struck source a b) b o.state := Stage.applyAffix_becomes_struck
  obtain ⟨hspecial, hfired⟩ := hall.report_prefix
  refine ⟨fun i => ⟨_, _, _, Die.eq_of_outline (hall.outline_eq i)⟩,
    fun i hi => hall.tray_eq_of_not_reached hi, fun effect v targets c hf => hf.targets_eq,
    hspecial, hfired, Stage.applyAffix_state_of_not_fires, ?_⟩
  rintro ⟨effect, v, targets, c, hf⟩ hok
  exact hf.fired_applyAffix hok

/-- A bonus for the right neighbor beside a tag that is gated out, and the same affix with its own gate
shut: the one writes the neighbor alone, the other nothing. -/
theorem dispatch_touches_only_targets_of_open_gates :
    let battle : Condition := { kind := .inCombat }
    let tagging : SubEffect :=
      { kind := .addTag, payload := .tag "lit", target? := some .self, condition? := some battle }
    let rally : Affix :=
      { name := "Rally", effect := { kind := .flatBonus, value := 2 }, selector := .right
        subEffects := [tagging] }
    let hush : Affix := { rally with condition? := some battle }
    let t : Tray :=
      { cells := [(0, { slot := 0, value := 3 }), (1, { slot := 1, value := 4 }),
          (2, { slot := 2, value := 5 })]
        next := 3 }
    let g : Stage := { scene := {}, hand := [0, 1, 2] }
    let b : Board := { tray := t, report := { fired := ["Spark"] } }
    let o := g.applyAffix 0 rally b
    ¬ g.Struck 0 rally b 0 ∧ o.state.tray.get 0 = t.get 0 ∧
      g.Fires 0 rally b rally.effect .passed [1] b ∧ o.answer = .ok () ∧
      (o.state.tray.get 1).value = 6 ∧ o.state.report.fired = ["Spark", "Rally"] ∧
      (¬ ∃ effect v targets c, g.Fires 0 hush b effect v targets c) ∧
      (g.applyAffix 0 hush b).state = b := by
  intro battle tagging rally hush t g b o
  have gated {before rest : List SubEffect} {s : SubEffect} {parent v : Verdict} {c : Board}
      (hs : [tagging] = before ++ s :: rest) (hv : s.verdict parent (g.view 0 c) = .ok v) :
      v.blocked = true := by
    obtain ⟨-, hs⟩ | ⟨-, hs⟩ := List.append_eq_singleton_iff.mp hs.symm
    · obtain rfl : s = tagging := (List.cons.inj hs).1
      cases hv
      rfl
    · cases hs
  have hfires : g.Fires 0 rally b rally.effect .passed [1] b := .primary rfl rfl
  have hstruck : ¬ g.Struck 0 rally b 0 := by
    rintro ⟨effect, v, targets, c, hf, hi⟩
    cases hf with
    | primary => exact absurd hi (by decide)
    | part hs _ _ hv hopen => exact absurd (gated hs hv) (by simp [hopen])
  have hshut : ¬ ∃ effect v targets c, g.Fires 0 hush b effect v targets c := by
    rintro ⟨effect, v, targets, c, hf⟩
    cases hf with
    | primary hv hopen =>
      cases hv
      cases hopen
    | part hs _ _ hv hopen => exact absurd (gated hs hv) (by simp [hopen])
  have hok : o.answer = .ok () := by decide +kernel
  obtain ⟨-, hkept, -, -, -, -, hnamed⟩ := dispatch_touches_only_targets g 0 rally b
  obtain ⟨-, -, -, -, -, hstill, -⟩ := dispatch_touches_only_targets g 0 hush b
  exact ⟨hstruck, hkept 0 hstruck, hfires, hok, by decide +kernel,
    hnamed ⟨_, _, _, _, hfires⟩ hok, hshut, hstill hshut⟩

end AffixRules
