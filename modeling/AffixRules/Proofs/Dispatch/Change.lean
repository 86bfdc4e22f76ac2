import AffixRules.Dispatch.Fire
import AffixRules.Proofs.Dispatch.Selectors
import Mathlib.Logic.Relation

/-! What a dispatch does to its board, change by change: it reports an effect, records a name, or
writes a die that it reaches. What every change keeps, a dispatch keeps, a failing one included. -/
namespace AffixRules

namespace Die

/-- The die without its tags and its element. -/
def plain (d : Die) : Die := { d with tags := [], element := .none }

/-- What no effect writes: the die without its working value, its tags and its element. -/
def outline (d : Die) : Die := { d.plain with value := 0 }

theorem addTag_plain (d : Die) (tag : Label) : (d.addTag tag).plain = d.plain := by
  unfold addTag
  split <;> rfl

theorem outline_withValue (d : Die) (n : Int) : (d.withValue n).outline = d.outline := rfl

theorem outline_of_plain {d e : Die} (h : d.plain = e.plain) : d.outline = e.outline := by
  simp only [outline, h]

theorem value_of_plain {d e : Die} (h : d.plain = e.plain) : d.value = e.value := by
  change d.plain.value = e.plain.value
  rw [h]

theorem slot_of_outline {d e : Die} (h : d.outline = e.outline) : d.slot = e.slot := by
  change d.outline.slot = e.outline.slot
  rw [h]

theorem consumed_of_outline {d e : Die} (h : d.outline = e.outline) :
    d.consumed = e.consumed := by
  change d.outline.consumed = e.outline.consumed
  rw [h]

theorem eq_of_outline {d e : Die} (h : e.outline = d.outline) :
    e = { d with value := e.value, tags := e.tags, element := e.element } := by
  have hd : d = { d.outline with value := d.value, tags := d.tags, element := d.element } := rfl
  rw [hd, ← h]
  rfl

end Die

namespace Board

/-- One change of a board. Tags and elements are written in place, leaving the plain die alone. -/
inductive Change (reached : DieId → Prop) (b : Board) : Board → Prop
  | emit (e : SpecialEffect) : Change reached b (b.emit e)
  | name (fired : Label) : Change reached b { b with report := b.report.name fired }
  | write {i : DieId} (h : reached i) (n : Int) : Change reached b (b.writeValue i n)
  | repaint {i : DieId} (h : reached i) (f : Die → Die) (hf : ∀ d, (f d).plain = d.plain) :
    Change reached b (b.modifyDie i f)

/-- The second board comes from the first by changes, one after the other. -/
abbrev Becomes (reached : DieId → Prop) : Board → Board → Prop :=
  Relation.ReflTransGen (Change reached)

variable {reached : DieId → Prop} {b c : Board}

theorem Change.outline_eq (h : Change reached b c) (j : DieId) :
    (c.tray.get j).outline = (b.tray.get j).outline := by
  cases h with
  | emit e => rfl
  | name fired => rfl
  | @write i hi n =>
    by_cases hj : i = j
    · subst hj
      simp [writeValue, Die.outline_withValue]
    · simp [writeValue, hj]
  | @repaint i hi f hf =>
    by_cases hj : i = j
    · subst hj
      simp [modifyDie, Die.outline_of_plain (hf _)]
    · simp [modifyDie, hj]

theorem Change.tray_eq_of_not_reached (h : Change reached b c) {j : DieId} (hj : ¬ reached j) :
    c.tray.get j = b.tray.get j := by
  cases h with
  | emit e => rfl
  | name fired => rfl
  | @write i hi n =>
    have hne : i ≠ j := fun he => hj (he ▸ hi)
    simp [writeValue, hne]
  | @repaint i hi f hf =>
    have hne : i ≠ j := fun he => hj (he ▸ hi)
    simp [modifyDie, hne]

theorem Becomes.outline_eq (h : Becomes reached b c) (j : DieId) :
    (c.tray.get j).outline = (b.tray.get j).outline := by
  induction h with
  | refl => rfl
  | tail _ hc ih => exact (hc.outline_eq j).trans ih

theorem Becomes.tray_eq_of_not_reached (h : Becomes reached b c) {j : DieId} (hj : ¬ reached j) :
    c.tray.get j = b.tray.get j := by
  induction h with
  | refl => rfl
  | tail _ hc ih => exact (hc.tray_eq_of_not_reached hj).trans ih

theorem Becomes.ready_eq (h : Becomes reached b c) (j : DieId) :
    c.tray.ready j = b.tray.ready j := by
  simp only [Tray.ready, Die.consumed_of_outline (h.outline_eq j)]

/-- Steps that change a board, one after the other up to a failure. -/
theorem becomes_forEach {α : Type} {step : α → Board → Outcome Board Unit} {as : List α}
    (h : ∀ a ∈ as, ∀ c, Becomes reached b c → Becomes reached c (step a c).state) :
    Becomes reached b (Outcome.forEach step as b).state :=
  Outcome.forEach_keeps (p := Becomes reached b) (fun a ha c hc => hc.trans (h a ha c hc)) .refl

end Board

namespace Firing

variable (f : Firing) {reached : DieId → Prop}

open Board

theorem hit_becomes {i : DieId} (hi : reached i) (b : Board) :
    Becomes reached b (f.hit i b).state := by
  have repaint (change : Die → Die) (hc : ∀ d, (change d).plain = d.plain) :
      Becomes reached b (b.modifyDie i change) := .single (.repaint hi change hc)
  have retagged (tag : Label) (change : Die → Die) (hc : ∀ d, (change d).plain = d.plain) :
      Becomes reached b (retag tag change i b).state := by
    unfold retag
    split
    · exact repaint change hc
    · exact .refl
  unfold hit
  split
  · unfold flatBonus
    split
    · exact .refl
    · exact .single (.write hi _)
  · unfold setMinimum
    split
    · exact .refl
    next least _ =>
      change Becomes reached b (if (b.tray.get i).value < least then b.writeValue i least else b)
      split
      · exact .single (.write hi _)
      · exact .refl
  · exact retagged _ _ fun d => d.addTag_plain _
  · exact retagged _ _ fun _ => rfl
  · exact repaint _ fun _ => rfl
  · exact .single (.emit _)
  · exact .refl

theorem emitModifier_becomes (t : ModifierTemplate) (target? : Option DieId) (b : Board) :
    Becomes reached b (f.emitModifier t target? b).state := by
  unfold emitModifier
  split
  · exact .refl
  · exact .single (.emit _)

theorem apply_becomes {targets : List DieId} (ht : ∀ i ∈ targets, reached i) (b : Board) :
    Becomes reached b (f.apply targets b).state := by
  have modifiers (t : ModifierTemplate) : Becomes reached b
      (if t.filter = .single then Outcome.forEach (fun i => f.emitModifier t (some i)) targets b
        else f.emitModifier t none b).state := by
    split
    · exact becomes_forEach fun i _ c _ => f.emitModifier_becomes t (some i) c
    · exact f.emitModifier_becomes t none b
  unfold apply
  split
  · split
    · exact .single (.emit _)
    · exact .refl
  · exact .single (.emit _)
  · exact modifiers _
  · exact becomes_forEach fun i hi c _ => f.hit_becomes (ht i hi) c

end Firing

namespace Stage

variable (g : Stage) {reached : DieId → Prop}

open Board

/-- The dice that the affixes of a source can write: the source and the unconsumed dice in hand. -/
def Reaches (t : Tray) (source i : DieId) : Prop :=
  i = source ∨ i ∈ g.hand ∧ t.ready i = true

theorem reaches_of_mem_targets {t : Tray} {source i : DieId} {selector : TargetSelector}
    (h : i ∈ t.targets g.hand source selector) : g.Reaches t source i := by
  by_cases hs : selector = .self
  · subst hs
    exact .inl (List.mem_singleton.mp h)
  · exact .inr (Tray.ready_of_mem_targets hs h)

theorem reaches_iff_of_becomes {b c : Board} (h : Becomes reached b c) (source i : DieId) :
    g.Reaches c.tray source i ↔ g.Reaches b.tray source i := by
  simp only [Reaches, h.ready_eq]

theorem applyEffect_becomes (source : DieId) (name : Label) (e : Effect) (v : Verdict)
    {targets : List DieId} (ht : ∀ i ∈ targets, reached i) (b : Board) :
    Becomes reached b (g.applyEffect source name e v targets b).state := by
  unfold applyEffect
  split
  · exact .refl
  · exact Outcome.andThen_keeps (p := Becomes reached b) (Firing.apply_becomes _ ht b)
      fun _ _ hc => hc

theorem applySubEffect_becomes (source : DieId) (name : Label) (parent : Verdict)
    {targets : List DieId} (ht : ∀ i ∈ targets, reached i) (s : SubEffect) {b : Board}
    (hr : ∀ i, g.Reaches b.tray source i → reached i) :
    Becomes reached b (g.applySubEffect source name parent targets s b).state := by
  unfold applySubEffect
  extract_lets verdict own
  have hown : ∀ i ∈ own, reached i := by
    unfold own
    split
    · exact fun i hi => hr i (g.reaches_of_mem_targets hi)
    · exact ht
  cases verdict with
  | error e => exact .refl
  | ok v => exact g.applyEffect_becomes source name s.toEffect v hown b

theorem applySubEffects_becomes (source : DieId) (name : Label) (parent : Verdict)
    {targets : List DieId} (ht : ∀ i ∈ targets, reached i) (subs : List SubEffect) {b : Board}
    (hr : ∀ i, g.Reaches b.tray source i → reached i) :
    Becomes reached b (g.applySubEffects source name parent targets subs b).state := by
  induction subs generalizing b with
  | nil => exact .refl
  | cons s rest ih =>
    have hs := g.applySubEffect_becomes source name parent ht s hr
    refine Outcome.andThen_keeps (p := Becomes reached b) hs fun _ c hc => ?_
    have hrest := ih fun i hi => hr i ((g.reaches_iff_of_becomes hc source i).mp hi)
    exact Outcome.andThen_keeps (p := Becomes reached b) (hc.trans hrest) fun _ _ hd => hd

/-- All that an affix does, it does by changes of the dice that its source reaches. -/
theorem applyAffix_becomes (source : DieId) (a : Affix) {b : Board}
    (hr : ∀ i, g.Reaches b.tray source i → reached i) :
    Becomes reached b (g.applyAffix source a b).state := by
  have ht : ∀ i ∈ b.tray.targets g.hand source a.selector, reached i := fun i hi =>
    hr i (g.reaches_of_mem_targets hi)
  unfold applyAffix
  split
  · exact .refl
  next v _ =>
    refine Outcome.andThen_keeps (p := Becomes reached b)
      (g.applyEffect_becomes source a.name a.effect v ht b) fun fired c hc => ?_
    have hsubs := g.applySubEffects_becomes source a.name v ht a.subEffects fun i hi =>
      hr i ((g.reaches_iff_of_becomes hc source i).mp hi)
    refine Outcome.andThen_keeps (p := Becomes reached b) (hc.trans hsubs) fun more d hd => ?_
    change Becomes reached b (if fired || more then _ else d)
    split
    · exact hd.tail (.name _)
    · exact hd

theorem fireDie_becomes (trigger : Trigger) (source : DieId) {b : Board}
    (hr : ∀ i, g.Reaches b.tray source i → reached i) :
    Becomes reached b (g.fireDie trigger source b).state := by
  unfold fireDie
  split
  · exact becomes_forEach fun a _ c hc =>
      g.applyAffix_becomes source a fun i hi => hr i ((g.reaches_iff_of_becomes hc source i).mp hi)
  · exact .refl

/-- A dispatch starts from an empty report and changes dice that one of its sources reaches. -/
theorem fire_becomes (trigger : Trigger) (source? : Option DieId) (t : Tray)
    (hr : ∀ source ∈ g.sources source? t, ∀ i, g.Reaches t source i → reached i) :
    ∃ report, Becomes reached ⟨t, {}⟩ ⟨(g.fire trigger source? t).state, report⟩ ∧
      ∀ r, (g.fire trigger source? t).answer = .ok r → r = report := by
  let o := Outcome.forEach (g.fireDie trigger) (g.sources source? t) { tray := t }
  have ho : Becomes reached ⟨t, {}⟩ o.state :=
    becomes_forEach fun source hs c hc => g.fireDie_becomes trigger source fun i hi =>
      hr source hs i ((g.reaches_iff_of_becomes hc source i).mp hi)
  refine ⟨o.state.report, ho, fun r h => ?_⟩
  change o.answer.map (fun _ => o.state.report) = .ok r at h
  cases hanswer : o.answer with
  | error e => rw [hanswer] at h; cases h
  | ok u => rw [hanswer] at h; cases h; rfl

end Stage

end AffixRules
