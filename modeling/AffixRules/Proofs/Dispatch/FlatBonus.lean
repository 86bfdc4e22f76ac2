import AffixRules.Proofs.Dispatch.Payloads

/-! The magnitude of a bonus on several dice. It is resolved anew for each target, so the dice after
the source receive what the source is worth by then. Up to there, and wherever the value source does
not look at the source, all targets receive the one magnitude of the start. -/
namespace AffixRules

namespace Effect

/-- The value source looks at the die that the affix is on. -/
def ReadsSelf (e : Effect) : Prop := e.source = .selfValue ∨ e.source = .selfValueFraction

variable {e : Effect} {scene : Scene} {self self' target target' : Subject}

theorem base_eq_of_target (h : e.source ≠ .neighborPercent) :
    e.base scene self target = e.base scene self target' := by
  unfold base
  split <;> first | rfl | contradiction

theorem base_eq_of_self (h : e.ReadsSelf → self = self') :
    e.base scene self target = e.base scene self' target := by
  unfold base
  split
  next => rfl
  next hs => rw [h (.inl hs)]
  next hs => rw [h (.inr hs)]
  all_goals rfl

end Effect

namespace Outcome

variable {σ γ : Type}

theorem forEach_append (step : γ → σ → Outcome σ Unit) (cs ds : List γ) (s : σ) :
    forEach step (cs ++ ds) s = (forEach step cs s).andThen fun _ t => forEach step ds t := by
  induction cs generalizing s with
  | nil => rfl
  | cons c cs ih => simp only [List.cons_append, forEach, ih, andThen_assoc]

end Outcome

theorem Die.add_eq_ok_iff {d e : Die} {x : Float} :
    d.add x = .ok e ↔ ∃ before n, toDouble d.value = .ok before ∧ truncate (before + x) = .ok n ∧
      d.withValue n = e := by
  simp only [add, setValue, bind_eq_ok_iff, map_eq_ok_iff, exists_and_left]

namespace Board

/-- Adds an amount to a die and records the change. -/
def add (amount : Except Failure Float) (i : DieId) (b : Board) : Outcome Board Unit :=
  match (do (b.tray.get i).add (← amount)) with
  | .error e => .failed e b
  | .ok d => .done () (b.writeValue i d.value)

/-- The die can receive the amount: there is one, and the sum has a whole part. -/
def Receives (amount : Except Failure Float) (i : DieId) (b : Board) : Prop :=
  ∃ x before n, amount = .ok x ∧ toDouble (b.tray.get i).value = .ok before ∧
    truncate (before + x) = .ok n

/-- Between two boards a die has received an amount: its value is the whole part of the sum. -/
def Received (amount : Except Failure Float) (i : DieId) (b c : Board) : Prop :=
  ∃ x before n, amount = .ok x ∧ toDouble (b.tray.get i).value = .ok before ∧
    truncate (before + x) = .ok n ∧ c.tray.get i = (b.tray.get i).withValue n

variable {amount : Except Failure Float} {i j : DieId} {targets : List DieId} {b b' c c' : Board}

theorem get_writeValue_of_ne (b : Board) (h : j ≠ i) (n : Int) :
    (b.writeValue i n).tray.get j = b.tray.get j := by
  simp [writeValue, h.symm]

theorem add_of_receives (h : b.Receives amount i) :
    ∃ c, add amount i b = .done () c ∧ Received amount i b c ∧
      ∀ j, j ≠ i → c.tray.get j = b.tray.get j := by
  obtain ⟨x, before, n, hx, hbefore, hn⟩ := h
  have hadd : (b.tray.get i).add x = .ok ((b.tray.get i).withValue n) :=
    Die.add_eq_ok_iff.mpr ⟨before, n, hbefore, hn, rfl⟩
  have hsum : (do (b.tray.get i).add (← amount)) = .ok ((b.tray.get i).withValue n) :=
    bind_eq_ok_iff.mpr ⟨x, hx, hadd⟩
  refine ⟨b.writeValue i n, ?_, ⟨x, before, n, hx, hbefore, hn, ?_⟩,
    fun j hj => b.get_writeValue_of_ne hj n⟩
  · rw [add, hsum]
    rfl
  · rw [writeValue, Store.get_set, if_pos rfl]

theorem receives_of_add (h : (add amount i b).answer = .ok ()) : b.Receives amount i := by
  unfold add at h
  split at h
  next => cases h
  next d hd =>
    obtain ⟨x, hx, hadd⟩ := bind_eq_ok_iff.mp hd
    obtain ⟨before, n, hbefore, hn, -⟩ := Die.add_eq_ok_iff.mp hadd
    exact ⟨x, before, n, hx, hbefore, hn⟩

theorem receives_congr (h : b.tray.get i = c.tray.get i) :
    b.Receives amount i ↔ c.Receives amount i := by
  unfold Receives
  rw [h]

theorem Received.congr (h : Received amount i b c) (hb : b'.tray.get i = b.tray.get i)
    (hc : c'.tray.get i = c.tray.get i) : Received amount i b' c' := by
  unfold Received
  rw [hb, hc]
  exact h

theorem forEach_add_answer (hn : targets.Nodup) :
    (Outcome.forEach (add amount) targets b).answer = .ok () ↔
      ∀ i ∈ targets, b.Receives amount i := by
  induction targets generalizing b with
  | nil => simp [Outcome.forEach, Outcome.done]
  | cons i rest ih =>
    obtain ⟨hi, hrest⟩ := List.nodup_cons.mp hn
    rw [List.forall_mem_cons]
    by_cases hr : b.Receives amount i
    · obtain ⟨c, hc, -, hothers⟩ := add_of_receives hr
      rw [Outcome.forEach, hc, Outcome.andThen_done, ih hrest]
      have hkept : ∀ j ∈ rest, (c.Receives amount j ↔ b.Receives amount j) := fun j hj =>
        receives_congr (hothers j (ne_of_mem_of_not_mem hj hi))
      exact ⟨fun h => ⟨hr, fun j hj => (hkept j hj).mp (h j hj)⟩,
        fun h j hj => (hkept j hj).mpr (h.2 j hj)⟩
    · refine ⟨fun h => ?_, fun h => absurd h.1 hr⟩
      obtain ⟨a, ha, -, -⟩ := Outcome.exists_of_andThen_ok h
      exact absurd (receives_of_add ha) hr

/-- A loop over different dice: each of them receives the amount, and no other die changes. -/
theorem received_of_forEach_add (hn : targets.Nodup)
    (h : Outcome.forEach (add amount) targets b = .done () c) :
    (∀ i ∈ targets, Received amount i b c) ∧ ∀ i, i ∉ targets → c.tray.get i = b.tray.get i := by
  induction targets generalizing b with
  | nil =>
    cases h
    exact ⟨by simp, fun _ _ => rfl⟩
  | cons i rest ih =>
    obtain ⟨hi, hrest⟩ := List.nodup_cons.mp hn
    obtain ⟨d, hd, htail⟩ := Outcome.exists_of_forEach_cons h
    obtain ⟨c', hc', hreceived, hothers⟩ :=
      add_of_receives (receives_of_add (congrArg Outcome.answer hd))
    obtain rfl : d = c' := congrArg Outcome.state (hd.symm.trans hc')
    obtain ⟨hall, hkept⟩ := ih hrest htail
    refine ⟨List.forall_mem_cons.mpr ⟨?_, fun j hj => ?_⟩, fun j hj => ?_⟩
    · exact hreceived.congr rfl (hkept i hi)
    · exact (hall j hj).congr (hothers j (ne_of_mem_of_not_mem hj hi)).symm rfl
    · obtain ⟨hne, hj⟩ := not_or.mp (mt List.mem_cons.mpr hj)
      rw [hkept j hj, hothers j hne]

end Board

namespace Firing

variable {f : Firing} {targets : List DieId} {b c : Board}

theorem magnitude_of_target (hs : f.effect.source ≠ .neighborPercent) (target? : Option DieId) :
    f.magnitude b target? = f.magnitude b none := by
  simp only [magnitude, Effect.magnitude]
  rw [Effect.base_eq_of_target hs]

theorem magnitude_of_source (h : f.effect.ReadsSelf → c.tray.get f.source = b.tray.get f.source) :
    f.magnitude c none = f.magnitude b none := by
  simp only [magnitude, Effect.magnitude, sourceDie]
  rw [Effect.base_eq_of_self fun hr => congrArg Subject.die (h hr)]
  rfl

theorem apply_flatBonus (hk : f.effect.kind = .flatBonus) :
    f.apply targets b = Outcome.forEach f.hit targets b := by
  simp only [apply, hk]

theorem hit_flatBonus (hk : f.effect.kind = .flatBonus) (hs : f.effect.source ≠ .neighborPercent)
    (i : DieId) (b : Board) : f.hit i b = Board.add (f.magnitude b none) i b := by
  simp only [hit, hk]
  rw [flatBonus, magnitude_of_target hs]
  rfl

/-- Where the source is not written before the last target, the loop adds the same to each. -/
theorem forEach_hit_eq (hk : f.effect.kind = .flatBonus) (hs : f.effect.source ≠ .neighborPercent)
    (h : f.effect.ReadsSelf → f.source ∉ targets.dropLast) :
    Outcome.forEach f.hit targets b =
      Outcome.forEach (Board.add (f.magnitude b none)) targets b := by
  induction targets generalizing b with
  | nil => rfl
  | cons i rest ih =>
    have hstep : f.hit i b = Board.add (f.magnitude b none) i b := hit_flatBonus hk hs i b
    rw [Outcome.forEach, Outcome.forEach, hstep]
    cases rest with
    | nil => rfl
    | cons j rest =>
      have hrest : f.effect.ReadsSelf → f.source ∉ (j :: rest).dropLast := fun hr hm =>
        h hr (List.mem_cons_of_mem i hm)
      have hne : f.effect.ReadsSelf → f.source ≠ i := fun hr he =>
        h hr (he ▸ List.mem_cons_self)
      unfold Board.add
      split
      · rfl
      next d _ =>
        have hkept : f.magnitude (b.writeValue i d.value) none = f.magnitude b none :=
          magnitude_of_source fun hr => b.get_writeValue_of_ne (hne hr) _
        rw [Outcome.andThen_done, Outcome.andThen_done, ih hrest, hkept]
        rfl

/-- The source divides its targets: up to it they receive the magnitude of the start, after it that
of the end. -/
theorem received_of_apply (hk : f.effect.kind = .flatBonus)
    (hs : f.effect.source ≠ .neighborPercent) {before after : List DieId}
    (hn : (before ++ f.source :: after).Nodup)
    (h : f.apply (before ++ f.source :: after) b = .done () c) :
    (∀ i ∈ before ++ [f.source], Board.Received (f.magnitude b none) i b c) ∧
      ∀ i ∈ after, Board.Received (f.magnitude c none) i b c := by
  rw [List.append_cons] at hn h
  obtain ⟨hfirst, hafter, hdisjoint⟩ := List.nodup_append.mp hn
  have hsource : f.source ∉ after := fun hm => hdisjoint f.source (by simp) f.source hm rfl
  rw [apply_flatBonus hk, Outcome.forEach_append] at h
  obtain ⟨_, d, hd, htail⟩ := Outcome.exists_of_andThen_done h
  have hbefore : f.source ∉ before := fun hm =>
    (List.nodup_append.mp hfirst).2.2 f.source hm f.source (by simp) rfl
  rw [forEach_hit_eq hk hs fun _ => by rwa [List.dropLast_concat]] at hd
  rw [forEach_hit_eq hk hs fun _ hm => hsource (List.mem_of_mem_dropLast hm)] at htail
  obtain ⟨hreceived, hkept⟩ := Board.received_of_forEach_add hfirst hd
  obtain ⟨hreceived', hkept'⟩ := Board.received_of_forEach_add hafter htail
  refine ⟨fun i hi => (hreceived i hi).congr rfl (hkept' i fun hm => hdisjoint i hi i hm rfl),
    fun i hi => ?_⟩
  rw [magnitude_of_source fun _ => hkept' _ hsource]
  exact (hreceived' i hi).congr (hkept i fun hm => hdisjoint i hm i hi rfl).symm rfl

end Firing

namespace Stage

variable {g : Stage} {source : DieId} {a : Affix} {b c : Board} {effect : Effect} {v : Verdict}
  {targets : List DieId}

theorem applySubEffects_append (name : Label) (parent : Verdict) (before rest : List SubEffect) :
    g.applySubEffects source name parent targets (before ++ rest) b =
      (g.applySubEffects source name parent targets before b).andThen fun fired c =>
        (g.applySubEffects source name parent targets rest c).map (fired || ·) := by
  induction before generalizing b with
  | nil =>
    change _ = (g.applySubEffects source name parent targets rest b).map (false || ·)
    rw [List.nil_append]
    generalize g.applySubEffects source name parent targets rest b = o
    obtain ⟨answer, c⟩ := o
    cases answer <;> rfl
  | cons s before ih =>
    simp only [List.cons_append, applySubEffects_cons, ih, ← Outcome.andThen_done_eq_map,
      Outcome.andThen_assoc, Outcome.andThen_done, Bool.or_assoc]

theorem applyEffects_append {before rest : List SubEffect} (hs : a.subEffects = before ++ rest) :
    g.applyEffects source a v b =
      (g.applyEffects source { a with subEffects := before } v b).andThen fun fired c =>
        (g.applySubEffects source a.name v (b.tray.targets g.hand source a.selector) rest c).map
          (fired || ·) := by
  simp only [applyEffects, hs, applySubEffects_append, ← Outcome.andThen_done_eq_map,
    Outcome.andThen_assoc, Outcome.andThen_done, Bool.or_assoc]

theorem Fires.nodup_targets (h : g.Fires source a b effect v targets c) (hn : g.hand.Nodup) :
    targets.Nodup := by
  cases h with
  | primary => exact Tray.nodup_targets hn source _
  | part =>
    unfold targetsOf
    cases SubEffect.target? _ with
    | none => exact Tray.nodup_targets hn source _
    | some selector => exact Tray.nodup_targets hn source _

theorem applyEffect_of_open (name : Label) (hopen : v.blocked = false) :
    g.applyEffect source name effect v targets b =
      ((⟨g.scene, source, name, effect, v⟩ : Firing).apply targets b).map fun _ => true := by
  rw [← Outcome.andThen_done_eq_map]
  simp [applyEffect, hopen]

/-- The dispatch comes to the application of what fires. The rest of the sub-effects follow, and at the
end the name is noted. -/
theorem Fires.applyAffix_eq (h : g.Fires source a b effect v targets c) :
    ∃ parent rest, Condition.evaluate? a.condition? (g.view source b) = .ok parent ∧
      rest <:+ a.subEffects ∧
      g.applyAffix source a b =
        ((⟨g.scene, source, a.name, effect, v⟩ : Firing).apply targets c).andThen fun _ d =>
          (g.applySubEffects source a.name parent (b.tray.targets g.hand source a.selector) rest
            d).andThen fun _ => Board.note a.name true := by
  cases h with
  | primary hv hopen =>
    refine ⟨v, a.subEffects, hv, List.suffix_refl _, ?_⟩
    rw [Stage.applyAffix_eq, hv]
    simp only [applyEffects, applyEffect_of_open _ hopen, ← Outcome.andThen_done_eq_map,
      Outcome.andThen_assoc, Outcome.andThen_done, Bool.true_or]
  | @part before rest s hs parent hparent fired _ hbefore _ hv hopen =>
    refine ⟨parent, rest, hparent, ⟨before ++ [s], by simp [hs]⟩, ?_⟩
    rw [Stage.applyAffix_eq, hparent]
    simp only [applyEffects_append hs, hbefore, Outcome.andThen_done, applySubEffects_cons,
      applySubEffect_eq, hv, applyEffect_of_open _ hopen, ← Outcome.andThen_done_eq_map,
      Outcome.andThen_assoc, Bool.true_or, Bool.or_true]

end Stage

/-- A bonus that fires is applied in the course of its dispatch, before the rest of the sub-effects.
Where the value source looks neither at the target nor at a die that the bonus changes before its last
target, all targets receive the one magnitude of the start. Where it looks at the source and that is
changed earlier, the targets up to the source still receive it, and those after it what the source
yields once it is changed. -/
theorem flat_bonus_gives_one_magnitude_up_to_source {g : Stage} {source : DieId} {a : Affix}
    {b c : Board} {effect : Effect} {v : Verdict} {targets : List DieId}
    (hfires : g.Fires source a b effect v targets c) (hk : effect.kind = .flatBonus)
    (hs : effect.source ≠ .neighborPercent) :
    let f : Firing := ⟨g.scene, source, a.name, effect, v⟩
    let o := f.apply targets c
    let m := f.magnitude c none
    let steady := effect.ReadsSelf → source ∉ targets.dropLast
    (∃ parent rest, Condition.evaluate? a.condition? (g.view source b) = .ok parent ∧
      rest <:+ a.subEffects ∧
      g.applyAffix source a b = o.andThen fun _ d =>
        (g.applySubEffects source a.name parent (b.tray.targets g.hand source a.selector) rest
          d).andThen fun _ => Board.note a.name true) ∧
      (∀ i, f.magnitude c (some i) = m) ∧
      (steady → o = Outcome.forEach (Board.add m) targets c) ∧
      (g.hand.Nodup →
        (steady →
          (o.answer = .ok () ↔ ∀ i ∈ targets, c.Receives m i) ∧
            ∀ d, o = .done () d → ∀ i ∈ targets, Board.Received m i c d) ∧
          ∀ before after d, targets = before ++ source :: after → o = .done () d →
            (∀ i ∈ before ++ [source], Board.Received m i c d) ∧
              ∀ i ∈ after, Board.Received (f.magnitude d none) i c d) := by
  intro f o m steady
  have hloop (h : steady) : o = Outcome.forEach (Board.add m) targets c :=
    (Firing.apply_flatBonus (f := f) hk).trans (Firing.forEach_hit_eq hk hs h)
  refine ⟨hfires.applyAffix_eq, fun i => Firing.magnitude_of_target hs (some i), hloop,
    fun hhand => ?_⟩
  have hn : targets.Nodup := hfires.nodup_targets hhand
  refine ⟨fun h => ?_, fun before after d hsplit hd => ?_⟩
  · rw [hloop h]
    exact ⟨Board.forEach_add_answer hn, fun d hd => (Board.received_of_forEach_add hn hd).1⟩
  · subst hsplit
    exact Firing.received_of_apply (f := f) hk hs hn hd

/-- A sub-effect with a stat of the player on the whole hand, the source in the middle and already
raised by the primary effect. -/
theorem flat_bonus_gives_one_magnitude_of_player_stat :
    let share : SubEffect :=
      { kind := .flatBonus, value := 0.5, source := .playerStat, sourceStat := "might"
        target? := some .all }
    let rally : Affix := { name := "Rally", effect := { kind := .flatBonus, value := 1 }
                           subEffects := [share] }
    let t : Tray :=
      { cells := [(0, { slot := 0, value := 3 }), (1, { slot := 1, value := 4 }),
          (2, { slot := 2, value := 5 })]
        next := 3 }
    let g : Stage := { scene := { player := { stats := [("might", some 5)] } }, hand := [0, 1, 2] }
    let b : Board := { tray := t }
    let c : Board := (g.applyEffects 1 { rally with subEffects := [] } .passed b).state
    let f : Firing := ⟨g.scene, 1, rally.name, share.toEffect, .passed⟩
    g.Fires 1 rally b share.toEffect .passed [0, 1, 2] c ∧ f.magnitude c none = .ok 2.5 ∧
      ∃ d, f.apply [0, 1, 2] c = .done () d ∧
        (∀ i ∈ [0, 1, 2], Board.Received (.ok 2.5) i c d) ∧
        [0, 1, 2].map (fun i => (d.tray.get i).value) = [5, 7, 7] := by
  intro share rally t g b c f
  have hanswer :
      (g.applyEffects 1 { rally with subEffects := [] } .passed b).answer = .ok true := by
    decide +kernel
  have hbefore : g.applyEffects 1 { rally with subEffects := [] } .passed b = .done true c := by
    rw [Outcome.done, ← hanswer]
  have hsubs : rally.subEffects = [] ++ share :: [] := rfl
  have htargets : g.targetsOf 1 share [1] c.tray = [0, 1, 2] := by decide +kernel
  have hfires : g.Fires 1 rally b share.toEffect .passed [0, 1, 2] c :=
    htargets ▸ .part hsubs rfl hbefore rfl rfl
  have hm : f.magnitude c none = .ok 2.5 := by decide +kernel
  obtain ⟨-, -, -, hhand⟩ := flat_bonus_gives_one_magnitude_up_to_source hfires rfl (by decide)
  obtain ⟨hsteady, -⟩ := hhand (by decide)
  obtain ⟨-, hall⟩ := hsteady fun hr => by
    obtain h | h := hr <;> cases h
  have hdone : f.apply [0, 1, 2] c = .done () (f.apply [0, 1, 2] c).state := by
    have hok : (f.apply [0, 1, 2] c).answer = .ok () := by decide +kernel
    rw [Outcome.done, ← hok]
  refine ⟨hfires, hm, _, hdone, ?_, by decide +kernel⟩
  rw [← hm]
  exact hall _ hdone

/-- The first of three dice gives its value to all of them: itself it doubles, so the others receive
six where it was worth three. -/
theorem flat_bonus_grows_past_source :
    let surge : Affix :=
      { name := "Surge", selector := .all, effect := { kind := .flatBonus, source := .selfValue } }
    let t : Tray :=
      { cells := [(0, { slot := 0, value := 3 }), (1, { slot := 1, value := 4 }),
          (2, { slot := 2, value := 5 })]
        next := 3 }
    let g : Stage := { scene := {}, hand := [0, 1, 2] }
    let b : Board := { tray := t }
    let f : Firing := ⟨g.scene, 0, surge.name, surge.effect, .passed⟩
    let o := g.applyAffix 0 surge b
    g.Fires 0 surge b surge.effect .passed [0, 1, 2] b ∧ f.magnitude b none = .ok 3 ∧
      o.answer = .ok () ∧
      [0, 1, 2].map (fun i => ((t.get i).add 3).map (·.value)) = [.ok 6, .ok 7, .ok 8] ∧
      [0, 1, 2].map (fun i => (o.state.tray.get i).value) = [6, 10, 11] := by
  intro surge t g b f o
  exact ⟨.primary rfl rfl, by decide +kernel, by decide +kernel, by decide +kernel,
    by decide +kernel⟩

end AffixRules
