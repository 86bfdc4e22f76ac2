import AffixRules.Pool.Compound
import AffixRules.Proofs.Dispatch.Change

/-! A dispatch reads the dice and never its report. From the same dice it answers and writes the
same whatever was reported before, and it extends the report by the same notes. -/
namespace AffixRules

/-- The names of the affixes that a trigger calls on a die, inherent ones first. -/
def Die.namesOn (d : Die) (trigger : Trigger) : List Label :=
  ((d.inherent ++ d.granted).filter fun a => a.trigger = trigger).map (·.name)

namespace Report

/-- Changes of slots noted one after the other. -/
def noted (changes : Entries Int Int) (notes : List (Int × Int)) : Entries Int Int :=
  notes.foldl (fun es (slot, delta) => (record { changes := es } slot delta).changes) changes

/-- Notes after notes; other than in a report, a slot may be noted several times. -/
def followedBy (r s : Report) : Report :=
  { special := r.special ++ s.special, fired := r.fired ++ s.fired
    changes := r.changes ++ s.changes }

theorem extend_eq (r s : Report) :
    r.extend s = ⟨r.special ++ s.special, r.fired ++ s.fired, noted r.changes s.changes⟩ := by
  obtain ⟨special, fired, notes⟩ := s
  simp only [extend]
  obtain ⟨special', fired', changes⟩ := r
  generalize special' ++ special = special, fired' ++ fired = fired
  induction notes generalizing changes with
  | nil => rfl
  | cons note notes ih =>
    obtain ⟨slot, delta⟩ := note
    have hrecord : record ⟨special, fired, changes⟩ slot delta =
        ⟨special, fired, (record { changes } slot delta).changes⟩ := by
      unfold record
      split <;> rfl
    rw [List.foldl_cons, hrecord, ih]
    rfl

theorem extend_empty (r : Report) : r.extend {} = r := by
  simp [extend]

theorem extend_followedBy (r s u : Report) :
    (r.extend s).extend u = r.extend (s.followedBy u) := by
  simp [extend_eq, followedBy, noted, List.append_assoc]

theorem emit_eq_extend (r : Report) (e : SpecialEffect) :
    r.emit e = r.extend { special := [e] } := by
  simp [extend, emit]

theorem name_eq_extend (r : Report) (fired : Label) :
    r.name fired = r.extend { fired := [fired] } := by
  simp [extend, name]

theorem record_eq_extend (r : Report) (slot delta : Int) :
    r.record slot delta = r.extend { changes := [(slot, delta)] } := by
  simp [extend]

end Report

namespace Board

variable {α β γ : Type} {t : Tray} {names more : List Label} {step : Board → Outcome Board α}

/-- Notes the name of an affix if an effect of it fired. -/
def note (name : Label) (fired : Bool) (b : Board) : Outcome Board Unit :=
  .done () (if fired then { b with report := b.report.name name } else b)

/-- From these dice the step answers, writes and notes the same whatever was reported before; the
names that it notes are some of those given. -/
def Noting (t : Tray) (names : List Label) (step : Board → Outcome Board α) : Prop :=
  ∃ (answer : Except Failure α) (u : Tray) (notes : Report),
    notes.fired.Sublist names ∧ ∀ r, step ⟨t, r⟩ = ⟨answer, ⟨u, r.extend notes⟩⟩

theorem Noting.fired_eq (h : Noting t [] step) (r : Report) :
    (step ⟨t, r⟩).state.report.fired = r.fired := by
  obtain ⟨answer, u, notes, hfired, hs⟩ := h
  simp [hs, Report.extend_eq, List.sublist_nil.mp hfired]

theorem Noting.congr {other : Board → Outcome Board α} (h : Noting t names step)
    (he : ∀ r, other ⟨t, r⟩ = step ⟨t, r⟩) : Noting t names other := by
  obtain ⟨answer, u, notes, hfired, hs⟩ := h
  exact ⟨answer, u, notes, hfired, fun r => (he r).trans (hs r)⟩

theorem noting_done (a : α) : Noting t names (Outcome.done a) :=
  ⟨.ok a, t, {}, List.nil_sublist _, fun r => by rw [Report.extend_empty]; rfl⟩

theorem noting_failed (e : Failure) : Noting t names (Outcome.failed e : Board → Outcome Board α) :=
  ⟨.error e, t, {}, List.nil_sublist _, fun r => by rw [Report.extend_empty]; rfl⟩

theorem noting_emit (e : SpecialEffect) : Noting t names fun b => .done () (b.emit e) :=
  ⟨.ok (), t, { special := [e] }, List.nil_sublist _, fun r => by
    simp only [emit, Report.emit_eq_extend]
    rfl⟩

theorem noting_note (name : Label) (fired : Bool) : Noting t [name] (note name fired) := by
  cases fired with
  | true =>
    refine ⟨.ok (), t, { fired := [name] }, List.Sublist.refl _, fun r => ?_⟩
    simp only [note, if_true, Report.name_eq_extend]
    rfl
  | false => exact noting_done ()

theorem noting_writeValue (i : DieId) (n : Int) :
    Noting t names fun b => .done () (b.writeValue i n) :=
  ⟨.ok (), t.set i ((t.get i).withValue n), { changes := [((t.get i).slot, n - (t.get i).value)] },
    List.nil_sublist _, fun r => by
      simp only [writeValue, Report.record_eq_extend]
      rfl⟩

theorem noting_modifyDie (i : DieId) (f : Die → Die) :
    Noting t names fun b => .done () (b.modifyDie i f) :=
  ⟨.ok (), t.modify i f, {}, List.nil_sublist _, fun r => by rw [Report.extend_empty]; rfl⟩

/-- Two steps note what each of them notes, the second from the dice that the first leaves. -/
theorem Noting.andThen {next : α → Board → Outcome Board β} (h : Noting t names step)
    (hn : ∀ a u r s, step ⟨t, r⟩ = ⟨.ok a, ⟨u, s⟩⟩ → Noting u more (next a)) :
    Noting t (names ++ more) fun b => (step b).andThen next := by
  obtain ⟨answer, u, notes, hfired, hs⟩ := h
  cases answer with
  | error e =>
    refine ⟨.error e, u, notes, hfired.trans (List.sublist_append_left _ _), fun r => ?_⟩
    simp only [hs]
    rfl
  | ok a =>
    obtain ⟨answer', u', notes', hfired', hs'⟩ := hn a u {} _ (hs {})
    refine ⟨answer', u', notes.followedBy notes', hfired.append hfired', fun r => ?_⟩
    simp only [hs, Outcome.andThen, hs', Report.extend_followedBy]

theorem Noting.then {next : α → Board → Outcome Board β} (h : Noting t [] step)
    (hn : ∀ a u, Noting u names (next a)) : Noting t names fun b => (step b).andThen next :=
  h.andThen fun a u _ _ _ => hn a u

theorem noting_forEach {step : γ → Board → Outcome Board Unit} {names : γ → List Label}
    {cs : List γ} (h : ∀ c ∈ cs, ∀ u, Noting u (names c) (step c)) :
    Noting t (cs.flatMap names) (Outcome.forEach step cs) := by
  induction cs generalizing t with
  | nil => exact noting_done ()
  | cons c cs ih =>
    rw [List.flatMap_cons]
    exact (h c (by simp) t).andThen fun _ u _ _ _ => ih fun d hd => h d (by simp [hd])

theorem noting_forEach_nameless {step : γ → Board → Outcome Board Unit} {cs : List γ}
    (h : ∀ c ∈ cs, ∀ u, Noting u [] (step c)) : Noting t [] (Outcome.forEach step cs) := by
  have hall : Noting t (cs.flatMap fun _ => []) (Outcome.forEach step cs) := noting_forEach h
  rwa [List.flatMap_eq_nil_iff.mpr fun _ _ => rfl] at hall

end Board

namespace Firing

variable (f : Firing) {t : Tray} {names : List Label}

open Board

/-- All that an effect can do to one target. -/
theorem hit_cases (i : DieId) :
    f.hit i = f.flatBonus i ∨ f.hit i = f.setMinimum i ∨
      (∃ tag change, f.hit i = retag tag change i) ∨
      (∃ change, f.hit i = fun b => .done () (b.modifyDie i change)) ∨
      (∃ es, f.hit i = fun b => .done () (b.emit
        (f.special b .randomizeElement (some (b.tray.get i).slot) (.elements es)))) ∨
      f.hit i = Outcome.done () := by
  have hhit : f.hit i = fun b => f.hit i b := rfl
  rw [hhit]
  unfold hit
  generalize f.effect.kind = kind, f.effect.payload = payload
  cases kind with
  | flatBonus => exact .inl rfl
  | setMinimum => exact .inr (.inl rfl)
  | addTag =>
    cases payload with
    | tag tag => exact .inr (.inr (.inl ⟨tag, (·.addTag tag), rfl⟩))
    | _ => exact .inr (.inr (.inr (.inr (.inr rfl))))
  | removeTag =>
    cases payload with
    | tag tag => exact .inr (.inr (.inl ⟨tag, (·.removeTag tag), rfl⟩))
    | _ => exact .inr (.inr (.inr (.inr (.inr rfl))))
  | setElement =>
    cases payload with
    | element element => exact .inr (.inr (.inr (.inl ⟨fun d => { d with element }, rfl⟩)))
    | _ => exact .inr (.inr (.inr (.inr (.inr rfl))))
  | randomizeElement => exact .inr (.inr (.inr (.inr (.inl ⟨_, rfl⟩))))
  | _ => exact .inr (.inr (.inr (.inr (.inr rfl))))

theorem flatBonus_noting (i : DieId) : Noting t names (f.flatBonus i) := by
  cases h : (do (t.get i).add (← f.magnitude { tray := t } (some i))) with
  | error e =>
    refine (noting_failed e).congr fun r => ?_
    have hr : (do (t.get i).add (← f.magnitude ⟨t, r⟩ (some i))) = .error e := h
    simp only [flatBonus, hr]
  | ok d =>
    refine (noting_writeValue i d.value).congr fun r => ?_
    have hr : (do (t.get i).add (← f.magnitude ⟨t, r⟩ (some i))) = .ok d := h
    simp only [flatBonus, hr]

theorem setMinimum_noting (i : DieId) : Noting t names (f.setMinimum i) := by
  cases h : (do truncate (← f.magnitude { tray := t } (some i))) with
  | error e =>
    refine (noting_failed e).congr fun r => ?_
    have hr : (do truncate (← f.magnitude ⟨t, r⟩ (some i))) = .error e := h
    simp only [setMinimum, hr]
  | ok least =>
    have hr (r : Report) : (do truncate (← f.magnitude ⟨t, r⟩ (some i))) = .ok least := h
    by_cases hless : (t.get i).value < least
    · exact (noting_writeValue i least).congr fun r => by simp only [setMinimum, hr, hless, if_true]
    · exact (noting_done ()).congr fun r => by simp only [setMinimum, hr, hless, if_false]

theorem retag_noting (tag : Label) (change : Die → Die) (i : DieId) :
    Noting t names (retag tag change i) := by
  by_cases h : tag.isName = true
  · exact (noting_modifyDie i change).congr fun r => by simp only [retag, if_pos h]
  · exact (noting_failed .notAName).congr fun r => by simp only [retag, if_neg h]

theorem hit_noting (i : DieId) : Noting t names (f.hit i) := by
  obtain h | h | ⟨tag, change, h⟩ | ⟨change, h⟩ | ⟨es, h⟩ | h := f.hit_cases i <;> rw [h]
  · exact f.flatBonus_noting i
  · exact f.setMinimum_noting i
  · exact retag_noting tag change i
  · exact noting_modifyDie i change
  · exact (noting_emit (f.special { tray := t } .randomizeElement (some (t.get i).slot)
      (.elements es))).congr fun r => rfl
  · exact noting_done ()

theorem emitModifier_noting (m : ModifierTemplate) (target? : Option DieId) :
    Noting t names (f.emitModifier m target?) := by
  cases h : f.magnitude { tray := t } target? with
  | error e =>
    refine (noting_failed e).congr fun r => ?_
    have hr : f.magnitude ⟨t, r⟩ target? = .error e := h
    simp only [emitModifier, hr]
  | ok value =>
    let slot? := target?.map fun i => (t.get i).slot
    let reported := f.special { tray := t } .createCombatModifier slot?
      (.modifier (f.modifier { tray := t } m value slot?))
    refine (noting_emit reported).congr fun r => ?_
    have hr : f.magnitude ⟨t, r⟩ target? = .ok value := h
    simp only [emitModifier, hr]
    rfl

theorem apply_noting (targets : List DieId) : Noting t [] (f.apply targets) := by
  have hhits : Noting t [] (Outcome.forEach f.hit targets) :=
    noting_forEach_nameless fun i _ _ => f.hit_noting i
  have hself (kind : SpecialKind) (data : SpecialData) :
      Noting t [] fun b => .done () (f.emitSelf b kind data) :=
    (noting_emit (f.special { tray := t } kind (some (t.get f.source).slot) data)).congr
      fun r => rfl
  have hmodifiers (m : ModifierTemplate) : Noting t [] fun b =>
      if m.filter = .single then Outcome.forEach (fun i => f.emitModifier m (some i)) targets b
      else f.emitModifier m none b := by
    by_cases hm : m.filter = .single
    · simp only [if_pos hm]
      exact noting_forEach_nameless fun i _ _ => f.emitModifier_noting m (some i)
    · simp only [if_neg hm]
      exact f.emitModifier_noting m none
  have happly : f.apply targets = fun b => f.apply targets b := rfl
  rw [happly]
  unfold apply
  cases f.effect.kind with
  | leechHeal =>
    cases f.effect.payload with
    | leech percent => exact hself .leechHeal (.percent percent)
    | _ => exact noting_done ()
  | destroySelf => exact hself .destroyFromPool .nothing
  | createCombatModifier => exact hmodifiers _
  | _ => exact hhits

end Firing

namespace Stage

variable (g : Stage) {t : Tray}

open Board

/-- A sub-effect's own targets, or those given. -/
def targetsOf (source : DieId) (s : SubEffect) (given : List DieId) (t : Tray) : List DieId :=
  (s.target?.map (t.targets g.hand source)).getD given

theorem applySubEffect_eq (source : DieId) (name : Label) (parent : Verdict)
    (targets : List DieId) (s : SubEffect) (b : Board) :
    g.applySubEffect source name parent targets s b =
      match s.verdict parent (g.view source b) with
      | .error e => .failed e b
      | .ok v =>
        g.applyEffect source name s.toEffect v (g.targetsOf source s targets b.tray) b := by
  unfold applySubEffect SubEffect.verdict targetsOf
  cases s.target? <;> rfl

theorem applySubEffects_cons (source : DieId) (name : Label) (parent : Verdict)
    (targets : List DieId) (s : SubEffect) (rest : List SubEffect) (b : Board) :
    g.applySubEffects source name parent targets (s :: rest) b =
      (g.applySubEffect source name parent targets s b).andThen fun fired c =>
        (g.applySubEffects source name parent targets rest c).map (fired || ·) := by
  simp only [applySubEffects, Outcome.andThen_done_eq_map]

/-- All effects of an affix under its verdict, the primary one first; tells whether one fired. -/
def applyEffects (source : DieId) (a : Affix) (v : Verdict) (b : Board) : Outcome Board Bool :=
  let targets := b.tray.targets g.hand source a.selector
  (g.applyEffect source a.name a.effect v targets b).andThen fun fired c =>
    (g.applySubEffects source a.name v targets a.subEffects c).map (fired || ·)

theorem applyAffix_eq (source : DieId) (a : Affix) (b : Board) :
    g.applyAffix source a b =
      match Condition.evaluate? a.condition? (g.view source b) with
      | .error e => .failed e b
      | .ok v => (g.applyEffects source a v b).andThen (note a.name) := by
  unfold applyAffix
  cases Condition.evaluate? a.condition? (g.view source b) with
  | error e => rfl
  | ok v =>
    simp only [applyEffects, ← Outcome.andThen_done_eq_map, Outcome.andThen_assoc,
      Outcome.andThen_done]
    rfl

theorem applyEffect_noting (source : DieId) (name : Label) (e : Effect) (v : Verdict)
    (targets : List DieId) : Noting t [] (g.applyEffect source name e v targets) := by
  have happly : Noting t [] ((⟨g.scene, source, name, e, v⟩ : Firing).apply targets) :=
    Firing.apply_noting _ targets
  cases hv : v.blocked with
  | true => exact (noting_done false).congr fun r => by simp only [applyEffect, hv, if_true]
  | false =>
    have hfired : Noting t [] fun b =>
        ((⟨g.scene, source, name, e, v⟩ : Firing).apply targets b).andThen fun _ => .done true :=
      happly.then fun _ _ => noting_done true
    exact hfired.congr fun r => by simp [applyEffect, hv]

theorem applySubEffect_noting (source : DieId) (name : Label) (parent : Verdict)
    (targets : List DieId) (s : SubEffect) :
    Noting t [] (g.applySubEffect source name parent targets s) := by
  have hview (r : Report) : g.view source ⟨t, r⟩ = g.view source { tray := t } := rfl
  cases h : s.verdict parent (g.view source { tray := t }) with
  | error e => exact (noting_failed e).congr fun r => by rw [applySubEffect_eq, hview, h]
  | ok v =>
    exact (g.applyEffect_noting source name s.toEffect v (g.targetsOf source s targets t)).congr
      fun r => by rw [applySubEffect_eq, hview, h]

theorem applySubEffects_noting (source : DieId) (name : Label) (parent : Verdict)
    (targets : List DieId) (subs : List SubEffect) :
    Noting t [] (g.applySubEffects source name parent targets subs) := by
  induction subs generalizing t with
  | nil => exact noting_done false
  | cons s rest ih =>
    exact (g.applySubEffect_noting source name parent targets s).then fun fired _ =>
      ih.then fun more _ => noting_done (fired || more)

theorem applyEffects_noting (source : DieId) (a : Affix) (v : Verdict) :
    Noting t [] (g.applyEffects source a v) := by
  let targets := t.targets g.hand source a.selector
  have hprimary : Noting t [] (g.applyEffect source a.name a.effect v targets) :=
    g.applyEffect_noting source a.name a.effect v targets
  have hrest (fired : Bool) (u : Tray) : Noting u [] fun b =>
      (g.applySubEffects source a.name v targets a.subEffects b).map (fired || ·) := by
    simp only [← Outcome.andThen_done_eq_map]
    exact (g.applySubEffects_noting source a.name v targets a.subEffects).then fun more _ =>
      noting_done (fired || more)
  exact (hprimary.then hrest).congr fun r => rfl

theorem applyAffix_noting (source : DieId) (a : Affix) :
    Noting t [a.name] (g.applyAffix source a) := by
  have hview (r : Report) : g.view source ⟨t, r⟩ = g.view source { tray := t } := rfl
  cases h : Condition.evaluate? a.condition? (g.view source { tray := t }) with
  | error e => exact (noting_failed e).congr fun r => by rw [applyAffix_eq, hview, h]
  | ok v =>
    have hall : Noting t [] (g.applyEffects source a v) := g.applyEffects_noting source a v
    have hnamed := hall.then fun any _ => noting_note a.name any
    exact hnamed.congr fun r => by rw [applyAffix_eq, hview, h]

theorem fireDie_noting (trigger : Trigger) (source : DieId) :
    Noting t ((t.get source).namesOn trigger) (g.fireDie trigger source) := by
  cases hd : (t.get source).incomplete with
  | true =>
    exact (noting_failed .unknownAffix).congr fun r => by
      simp [fireDie, Die.affixesOn, Die.affixes, hd, Except.map]
  | false =>
    have hall (as : List Affix) :
        Noting t (as.map (·.name)) (Outcome.forEach (g.applyAffix source) as) := by
      rw [List.map_eq_flatMap]
      exact noting_forEach fun a _ _ => g.applyAffix_noting source a
    exact (hall _).congr fun r => by
      simp [fireDie, Die.affixesOn, Die.affixes, hd, Except.map]

end Stage

end AffixRules
