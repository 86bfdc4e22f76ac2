import AffixRules.Proofs.Dispatch.Notes

/-! A bystander of a dispatch: a consumed die that is not among its sources. No effect reaches it, and
whatever affixes it carries, the dispatch runs as it does without them. -/
namespace AffixRules

namespace Die

/-- The die without its affixes. -/
def unarmed (d : Die) : Die := { d with inherent := [], granted := [], incomplete := false }

variable {d e : Die}

theorem slot_of_unarmed (h : d.unarmed = e.unarmed) : d.slot = e.slot := by
  change d.unarmed.slot = e.unarmed.slot
  rw [h]

theorem consumed_of_unarmed (h : d.unarmed = e.unarmed) : d.consumed = e.consumed := by
  change d.unarmed.consumed = e.unarmed.consumed
  rw [h]

theorem shown_of_unarmed (h : d.unarmed = e.unarmed) : d.shown = e.shown := by
  change d.unarmed.shown = e.unarmed.shown
  rw [h]

end Die

theorem dieAt?_unarmed (ds : List Die) (slot : Int) :
    dieAt? (ds.map Die.unarmed) slot = (dieAt? ds slot).map Die.unarmed := by
  unfold dieAt?
  rw [List.find?_map]
  rfl

namespace Condition

/-- A condition sees no affixes of the dice around it. -/
theorem evaluate_unarmed (c : Condition) (v : View) :
    c.evaluate { v with related := v.related.map Die.unarmed } = c.evaluate v := by
  have hneighbor (offset : Int) :
      View.neighbor? { v with related := v.related.map Die.unarmed } offset =
        (v.neighbor? offset).map Die.unarmed := dieAt?_unarmed v.related _
  have hqualifies (d? : Option Die) : c.qualifies (d?.map Die.unarmed) = c.qualifies d? := by
    cases d? <;> rfl
  have hverdict : c.verdict { v with related := v.related.map Die.unarmed } = c.verdict v := by
    unfold verdict
    cases c.kind with
    | neighborsUsed =>
      simp only [neighborsVerdict, hneighbor]
      cases v.neighbor? (-1) <;> cases v.neighbor? 1 <;> rfl
    | perQualifyingNeighbor => simp only [qualifyingNeighbors, hneighbor, hqualifies]
    | _ => rfl
  simp only [evaluate, hverdict]

theorem evaluate_congr (c : Condition) {v w : View} (hscene : v.scene = w.scene)
    (hsubject : v.subject = w.subject) (hindex : v.index = w.index)
    (hrelated : v.related.map Die.unarmed = w.related.map Die.unarmed) :
    c.evaluate v = c.evaluate w := by
  rw [← c.evaluate_unarmed v, ← c.evaluate_unarmed w, hscene, hsubject, hindex, hrelated]

end Condition

namespace Outcome

variable {σ α β γ : Type}

/-- The same answer, and states that are related. -/
def Same (R : σ → σ → Prop) (o o' : Outcome σ α) : Prop :=
  o.answer = o'.answer ∧ R o.state o'.state

variable {R : σ → σ → Prop}

theorem Same.andThen {o o' : Outcome σ α} {next next' : α → σ → Outcome σ β} (h : Same R o o')
    (hn : ∀ a s t, R s t → Same R (next a s) (next' a t)) :
    Same R (o.andThen next) (o'.andThen next') := by
  obtain ⟨answer, s⟩ := o
  obtain ⟨answer', t⟩ := o'
  obtain ⟨rfl, hst⟩ := h
  cases answer with
  | error e => exact ⟨rfl, hst⟩
  | ok a => exact hn a s t hst

theorem Same.map {o o' : Outcome σ α} (h : Same R o o') (f : α → β) :
    Same R (o.map f) (o'.map f) :=
  ⟨congrArg (Except.map f) h.1, h.2⟩

theorem same_forEach {step : γ → σ → Outcome σ Unit} {cs : List γ} {s t : σ}
    (h : ∀ c ∈ cs, ∀ s t, R s t → Same R (step c s) (step c t)) (hst : R s t) :
    Same R (forEach step cs s) (forEach step cs t) := by
  induction cs generalizing s t with
  | nil => exact ⟨rfl, hst⟩
  | cons c cs ih =>
    exact (h c (by simp) s t hst).andThen fun _ u v huv => ih (fun a ha => h a (by simp [ha])) huv

end Outcome

/-- Two trays that agree but for one die. It is consumed, `d` on the one and `e` on the other, and
these differ in nothing but their affixes. -/
structure Tray.Apart (i : DieId) (d e : Die) (t u : Tray) : Prop where
  left : t.get i = d
  right : u.get i = e
  alike : d.unarmed = e.unarmed
  consumed : d.consumed = true
  other : ∀ j, j ≠ i → t.get j = u.get j

namespace Tray.Apart

variable {i j source : DieId} {d e : Die} {t u : Tray}

theorem unarmed_eq (h : t.Apart i d e u) (j : DieId) : (t.get j).unarmed = (u.get j).unarmed := by
  by_cases hj : j = i
  · subst hj
    rw [h.left, h.right, h.alike]
  · rw [h.other j hj]

theorem ready_eq (h : t.Apart i d e u) : t.ready = u.ready := by
  funext j
  simp only [Tray.ready, Die.consumed_of_unarmed (h.unarmed_eq j)]

theorem not_ready (h : t.Apart i d e u) : t.ready i = false := by
  simp [Tray.ready, h.left, h.consumed]

theorem set (h : t.Apart i d e u) (hj : j ≠ i) (f : Die) :
    Tray.Apart i d e (t.set j f) (u.set j f) where
  left := by simp [hj, h.left]
  right := by simp [hj, h.right]
  alike := h.alike
  consumed := h.consumed
  other k hk := by simp [h.other k hk]

theorem modify (h : t.Apart i d e u) (hj : j ≠ i) (f : Die → Die) :
    Tray.Apart i d e (t.modify j f) (u.modify j f) := by
  unfold Store.modify
  rw [h.other j hj]
  exact h.set hj _

theorem targets_eq (h : t.Apart i d e u) (hand : List DieId) (source : DieId)
    (selector : TargetSelector) :
    t.targets hand source selector = u.targets hand source selector :=
  targets_eq_of_slots (fun j => Die.slot_of_unarmed (h.unarmed_eq j)) h.ready_eq hand source selector

end Tray.Apart

/-- Boards on such trays, with the same report. -/
structure Board.Apart (i : DieId) (d e : Die) (b c : Board) : Prop where
  report : b.report = c.report
  tray : b.tray.Apart i d e c.tray

namespace Board.Apart

variable {i j : DieId} {d e : Die} {b c : Board}

theorem emit (h : b.Apart i d e c) (x : SpecialEffect) : (b.emit x).Apart i d e (c.emit x) :=
  ⟨congrArg (·.emit x) h.report, h.tray⟩

theorem modifyDie (h : b.Apart i d e c) (hj : j ≠ i) (f : Die → Die) :
    (b.modifyDie j f).Apart i d e (c.modifyDie j f) :=
  ⟨h.report, h.tray.modify hj f⟩

theorem writeValue (h : b.Apart i d e c) (hj : j ≠ i) (n : Int) :
    (b.writeValue j n).Apart i d e (c.writeValue j n) := by
  unfold Board.writeValue
  rw [h.report, h.tray.other j hj]
  exact ⟨rfl, h.tray.set hj _⟩

theorem note (h : b.Apart i d e c) (name : Label) (fired : Bool) :
    Outcome.Same (Board.Apart i d e) (Board.note name fired b) (Board.note name fired c) := by
  cases fired with
  | true => exact ⟨rfl, congrArg (·.name name) h.report, h.tray⟩
  | false => exact ⟨rfl, h⟩

end Board.Apart

namespace Firing

variable {f : Firing} {i j : DieId} {d e : Die} {b c : Board}

open Outcome Board

theorem magnitude_apart (h : b.Apart i d e c) (hs : f.source ≠ i) {target? : Option DieId}
    (ht : ∀ j ∈ target?, j ≠ i) : f.magnitude b target? = f.magnitude c target? := by
  have htarget : (target?.map fun j => Subject.die (b.tray.get j)) =
      target?.map fun j => Subject.die (c.tray.get j) :=
    Option.map_congr fun j hj => congrArg _ (h.tray.other j (ht j hj))
  unfold magnitude sourceDie
  rw [h.tray.other _ hs, htarget]

theorem special_apart (h : b.Apart i d e c) (hs : f.source ≠ i) (kind : SpecialKind)
    (target? : Option Int) (data : SpecialData) :
    f.special b kind target? data = f.special c kind target? data := by
  unfold special sourceDie
  rw [h.tray.other _ hs]

theorem hit_apart (h : b.Apart i d e c) (hs : f.source ≠ i) (hj : j ≠ i) :
    Same (Board.Apart i d e) (f.hit j b) (f.hit j c) := by
  have hmagnitude : f.magnitude b (some j) = f.magnitude c (some j) :=
    magnitude_apart h hs fun k hk => Option.some.inj hk ▸ hj
  have hdie : b.tray.get j = c.tray.get j := h.tray.other j hj
  obtain hf | hf | ⟨tag, change, hf⟩ | ⟨change, hf⟩ | ⟨es, hf⟩ | hf := f.hit_cases j <;> rw [hf]
  · unfold flatBonus
    rw [hmagnitude, hdie]
    split
    · exact ⟨rfl, h⟩
    · exact ⟨rfl, h.writeValue hj _⟩
  · unfold setMinimum
    rw [hmagnitude, hdie]
    split
    · exact ⟨rfl, h⟩
    next least _ =>
      refine ⟨rfl, ?_⟩
      by_cases hless : (c.tray.get j).value < least
      · simpa only [Outcome.done, hless, if_true] using h.writeValue hj least
      · simpa only [Outcome.done, hless, if_false] using h
  · unfold retag
    split
    · exact ⟨rfl, h.modifyDie hj change⟩
    · exact ⟨rfl, h⟩
  · exact ⟨rfl, h.modifyDie hj change⟩
  · simp only [special_apart h hs, hdie]
    exact ⟨rfl, h.emit _⟩
  · exact ⟨rfl, h⟩

theorem emitModifier_apart (h : b.Apart i d e c) (hs : f.source ≠ i) (m : ModifierTemplate)
    {target? : Option DieId} (ht : ∀ j ∈ target?, j ≠ i) :
    Same (Board.Apart i d e) (f.emitModifier m target? b) (f.emitModifier m target? c) := by
  have hslot : (target?.map fun j => (b.tray.get j).slot) = target?.map fun j => (c.tray.get j).slot :=
    Option.map_congr fun j hj => congrArg _ (h.tray.other j (ht j hj))
  have hmodifier (value : Float) (target? : Option Int) :
      f.modifier b m value target? = f.modifier c m value target? := by
    unfold modifier sourceDie
    rw [h.tray.other _ hs]
  unfold emitModifier
  rw [magnitude_apart h hs ht, hslot]
  split
  · exact ⟨rfl, h⟩
  · simp only [special_apart h hs, hmodifier]
    exact ⟨rfl, h.emit _⟩

theorem apply_apart (h : b.Apart i d e c) (hs : f.source ≠ i) {targets : List DieId}
    (ht : ∀ j ∈ targets, j ≠ i) :
    Same (Board.Apart i d e) (f.apply targets b) (f.apply targets c) := by
  have hself (kind : SpecialKind) (data : SpecialData) :
      (f.emitSelf b kind data).Apart i d e (f.emitSelf c kind data) := by
    unfold emitSelf sourceDie
    rw [special_apart h hs, h.tray.other _ hs]
    exact h.emit _
  have hhits : Same (Board.Apart i d e) (forEach f.hit targets b) (forEach f.hit targets c) :=
    same_forEach (fun j hj _ _ hbc => hit_apart hbc hs (ht j hj)) h
  have hmodifiers (m : ModifierTemplate) : Same (Board.Apart i d e)
      (if m.filter = .single then forEach (fun j => f.emitModifier m (some j)) targets b
        else f.emitModifier m none b)
      (if m.filter = .single then forEach (fun j => f.emitModifier m (some j)) targets c
        else f.emitModifier m none c) := by
    split
    · refine same_forEach (fun j hj _ _ hbc => emitModifier_apart hbc hs m fun k hk => ?_) h
      exact Option.some.inj hk ▸ ht j hj
    · exact emitModifier_apart h hs m fun k hk => nomatch hk
  unfold apply
  cases f.effect.kind with
  | leechHeal =>
    cases f.effect.payload with
    | leech percent => exact ⟨rfl, hself _ _⟩
    | _ => exact ⟨rfl, h⟩
  | destroySelf => exact ⟨rfl, hself _ _⟩
  | createCombatModifier => exact hmodifiers _
  | _ => exact hhits

end Firing

namespace Stage

variable {g : Stage} {i source : DieId} {d e : Die} {b c : Board}

open Outcome Board

theorem evaluate_apart (h : b.Apart i d e c) (hs : source ≠ i) (condition : Condition) :
    condition.evaluate (g.view source b) = condition.evaluate (g.view source c) := by
  have hsource : b.tray.get source = c.tray.get source := h.tray.other source hs
  have hdice : (b.tray.dice g.hand).map Die.unarmed = (c.tray.dice g.hand).map Die.unarmed := by
    simp only [Tray.dice, List.map_map, List.map_inj_left]
    exact fun j _ => h.tray.unarmed_eq j
  exact condition.evaluate_congr rfl (congrArg Subject.die hsource) (congrArg Die.slot hsource) hdice

theorem ne_of_mem_targets (h : b.Apart i d e c) (hs : source ≠ i) {selector : TargetSelector}
    {j : DieId} (hj : j ∈ b.tray.targets g.hand source selector) : j ≠ i := by
  rintro rfl
  obtain rfl | ⟨-, hready⟩ := g.reaches_of_mem_targets hj
  · exact hs rfl
  · rw [h.tray.not_ready] at hready
    cases hready

theorem applyEffect_apart (h : b.Apart i d e c) (hs : source ≠ i) (name : Label) (x : Effect)
    (v : Verdict) {targets : List DieId} (ht : ∀ j ∈ targets, j ≠ i) :
    Same (Board.Apart i d e) (g.applyEffect source name x v targets b)
      (g.applyEffect source name x v targets c) := by
  unfold applyEffect
  split
  · exact ⟨rfl, h⟩
  · refine (Firing.apply_apart (f := ⟨g.scene, source, name, x, v⟩) h hs ht).andThen ?_
    exact fun _ _ _ hbc => ⟨rfl, hbc⟩

theorem applySubEffect_apart (h : b.Apart i d e c) (hs : source ≠ i) (name : Label)
    (parent : Verdict) {targets : List DieId} (ht : ∀ j ∈ targets, j ≠ i) (s : SubEffect) :
    Same (Board.Apart i d e) (g.applySubEffect source name parent targets s b)
      (g.applySubEffect source name parent targets s c) := by
  have hverdict : s.verdict parent (g.view source b) = s.verdict parent (g.view source c) := by
    unfold SubEffect.verdict
    split
    · exact evaluate_apart h hs _
    · rfl
  have hown : g.targetsOf source s targets b.tray = g.targetsOf source s targets c.tray := by
    unfold targetsOf
    cases s.target? with
    | none => rfl
    | some selector => exact h.tray.targets_eq g.hand source selector
  have hnot : ∀ j ∈ g.targetsOf source s targets c.tray, j ≠ i := by
    rw [← hown]
    unfold targetsOf
    cases s.target? with
    | none => exact ht
    | some selector => exact fun j hj => ne_of_mem_targets h hs hj
  rw [applySubEffect_eq, applySubEffect_eq, hverdict, hown]
  split
  · exact ⟨rfl, h⟩
  · exact applyEffect_apart h hs name s.toEffect _ hnot

theorem applySubEffects_apart (h : b.Apart i d e c) (hs : source ≠ i) (name : Label)
    (parent : Verdict) {targets : List DieId} (ht : ∀ j ∈ targets, j ≠ i) (subs : List SubEffect) :
    Same (Board.Apart i d e) (g.applySubEffects source name parent targets subs b)
      (g.applySubEffects source name parent targets subs c) := by
  induction subs generalizing b c with
  | nil => exact ⟨rfl, h⟩
  | cons s rest ih =>
    rw [applySubEffects_cons, applySubEffects_cons]
    exact (applySubEffect_apart h hs name parent ht s).andThen fun _ _ _ hbc => (ih hbc).map _

theorem applyAffix_apart (h : b.Apart i d e c) (hs : source ≠ i) (a : Affix) :
    Same (Board.Apart i d e) (g.applyAffix source a b) (g.applyAffix source a c) := by
  have hverdict : Condition.evaluate? a.condition? (g.view source b) =
      Condition.evaluate? a.condition? (g.view source c) := by
    unfold Condition.evaluate?
    split
    · exact evaluate_apart h hs _
    · rfl
  have ht : ∀ j ∈ b.tray.targets g.hand source a.selector, j ≠ i := fun j hj =>
    ne_of_mem_targets h hs hj
  rw [applyAffix_eq, applyAffix_eq, hverdict]
  split
  · exact ⟨rfl, h⟩
  next v _ =>
    have heffects : Same (Board.Apart i d e) (g.applyEffects source a v b)
        (g.applyEffects source a v c) := by
      unfold applyEffects
      rw [← h.tray.targets_eq]
      exact (applyEffect_apart h hs a.name a.effect v ht).andThen fun _ _ _ hbc =>
        (applySubEffects_apart hbc hs a.name v ht a.subEffects).map _
    exact heffects.andThen fun fired _ _ hbc => hbc.note a.name fired

theorem fireDie_apart (h : b.Apart i d e c) (hs : source ≠ i) (trigger : Trigger) :
    Same (Board.Apart i d e) (g.fireDie trigger source b) (g.fireDie trigger source c) := by
  unfold fireDie
  rw [h.tray.other source hs]
  split
  · exact same_forEach (fun a _ _ _ hbc => applyAffix_apart hbc hs a) h
  · exact ⟨rfl, h⟩

variable {t u : Tray} {source? : Option DieId}

theorem not_mem_sources (h : t.Apart i d e u) (hs : source? ≠ some i) :
    i ∉ g.sources source? t := by
  cases source? with
  | none =>
    intro hi
    have hready := (List.mem_filter.mp hi).2
    rw [h.not_ready] at hready
    cases hready
  | some j =>
    intro hi
    exact hs (congrArg some (List.mem_singleton.mp hi).symm)

/-- A dispatch from other dice leaves a consumed die as it is and takes no notice of its affixes. -/
theorem fire_apart (h : t.Apart i d e u) (hs : source? ≠ some i) (trigger : Trigger) :
    Same (Tray.Apart i d e) (g.fire trigger source? t) (g.fire trigger source? u) := by
  have hsources : g.sources source? t = g.sources source? u := by
    unfold sources
    rw [h.ready_eq]
  have hnot : ∀ j ∈ g.sources source? u, j ≠ i := by
    rintro j hj rfl
    exact not_mem_sources h hs (hsources ▸ hj)
  have hall : Same (Board.Apart i d e)
      (forEach (g.fireDie trigger) (g.sources source? u) { tray := t })
      (forEach (g.fireDie trigger) (g.sources source? u) { tray := u }) :=
    same_forEach (fun j hj _ _ hbc => fireDie_apart hbc (hnot j hj) trigger) ⟨rfl, h⟩
  obtain ⟨hanswer, hboard⟩ := hall
  unfold fire
  rw [hsources]
  refine ⟨?_, hboard.tray⟩
  simp only [hanswer, hboard.report]

end Stage

end AffixRules
