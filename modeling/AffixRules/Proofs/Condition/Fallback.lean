import AffixRules.Pool.Compound

/-! Conditions and values with malformed data. A quantity that cannot be resolved passes its gate or
counts as zero; what stops an evaluation is only a list or an object in the place of a name. -/
namespace AffixRules

/-- The integer lies within the doubles. -/
def HasDouble (n : Int) : Prop := ∃ x, toDouble n = .ok x

def Subject.Ordinary : Subject → Prop
  | die d => HasDouble d.value
  | whole n => HasDouble n
  | none | item _ | number _ | stat _ | inert => True

theorem Subject.ordinary_none : Subject.none.Ordinary := trivial

theorem Subject.ordinary_target {ι : Type} {target? : Option ι} {die : ι → Die}
    (h : ∀ i, target? = some i → HasDouble (die i).value) :
    ((target?.map fun i => Subject.die (die i)).getD .none).Ordinary := by
  cases target? with
  | none => trivial
  | some i => exact h i rfl

structure Scene.Ordinary (s : Scene) : Prop where
  className : ∃ name, s.player.className = .text name
  usedCount : HasDouble s.usedCount

structure View.Ordinary (v : View) : Prop where
  scene : v.scene.Ordinary
  subject : v.subject.Ordinary
  related : ∀ d ∈ v.related, HasDouble d.value

/-- An answer, unless something is malformed and stands for a name. -/
def Answers {α : Type} (malformed : Prop) (x : Except Failure α) : Prop :=
  (∃ a, x = .ok a) ∨ x = .error .notAName ∧ malformed

section Answers

variable {α β : Type} {p q : Prop} {x : Except Failure α}

theorem answers_ok (a : α) : Answers p (.ok a : Except Failure α) := .inl ⟨a, rfl⟩

theorem Answers.imp (h : Answers p x) (hpq : p → q) : Answers q x :=
  Or.imp id (And.imp id hpq) h

theorem Answers.bind {f : α → Except Failure β} (h : Answers p x) (hf : ∀ a, Answers p (f a)) :
    Answers p (x >>= f) := by
  obtain ⟨a, rfl⟩ | ⟨rfl, hp⟩ := h
  · exact hf a
  · exact .inr ⟨rfl, hp⟩

theorem Answers.map (h : Answers p x) (f : α → β) : Answers p (x.map f) := by
  obtain ⟨a, rfl⟩ | ⟨rfl, hp⟩ := h
  · exact answers_ok _
  · exact .inr ⟨rfl, hp⟩

theorem Answers.ok (h : Answers p x) (hp : ¬ p) : ∃ a, x = .ok a :=
  h.resolve_right fun he => hp he.2

theorem HasDouble.answers {n : Int} (h : HasDouble n) : Answers p (toDouble n) := .inl h

end Answers

theorem Subject.Ordinary.value_answers {s : Subject} (h : s.Ordinary) (player? : Option Player)
    {p : Prop} : Answers p (s.value player?) := by
  cases s with
  | die d => exact (HasDouble.answers h).map some
  | whole n => exact (HasDouble.answers h).map some
  | _ => exact answers_ok _

theorem View.Ordinary.neighbor {v : View} (h : v.Ordinary) {offset : Int} {d : Die}
    (hd : v.neighbor? offset = some d) : HasDouble d.value :=
  h.related d (List.mem_of_find?_eq_some hd)

theorem Player.statNamed_answers (player : Player) (name : Label) :
    Answers (name.isName = false) (player.statNamed name) := by
  unfold statNamed
  cases hn : name.isName with
  | true => split <;> exact answers_ok _
  | false =>
    split
    · exact answers_ok _
    · exact .inr ⟨rfl, rfl⟩

/-- The subject's value is compared with its maximum. -/
def ConditionKind.readsMaximum : ConditionKind → Bool
  | selfValueIsMax | selfValueBelowHalfMax => true
  | _ => false

namespace Condition

/-- What the condition looks up, if anything, is a name; a class is only compared. -/
def wellNamed (c : Condition) : Bool :=
  c.kind = .classIs || (c.kind.parameter?.bind c.parameter?).all Document.isName

/-- The verdict when nothing can be resolved. -/
def fallback (c : Condition) : Verdict := if c.kind.isScaling then .scaled 0 else .passed

/-- The condition asks about something that the content does not say or the scene does not have. -/
def Unresolved (c : Condition) (v : View) : Prop :=
  match c.kind with
  | .selfValueAbove | .selfValueBelow | .selfValueIsMin => v.selfValue = .ok none
  | .selfValueIsMax | .selfValueBelowHalfMax =>
    v.selfValue = .ok none ∨ v.subject.maximum? = none
  | .healthAbovePercent | .healthBelowPercent => v.scene.player.maxHealth ≤ 0
  | .statAbove | .perStatPoint => c.statValue v.scene.player = .ok none
  | .classIs => c.parameter? "class_name" = none
  | .hasTag => c.parameter? "tag" = none
  | _ => False

variable {c : Condition} {v : View}

theorem statValue_answers (hk : c.kind.parameter? = some "stat") (player : Player) :
    Answers (c.wellNamed = false) (c.statValue player) := by
  have hclass : c.kind ≠ .classIs := fun h => by simp [h, ConditionKind.parameter?] at hk
  unfold statValue
  cases hp : c.parameter? "stat" with
  | none => exact answers_ok _
  | some d => exact (player.statNamed_answers d).imp fun hd => by simp [wellNamed, hclass, hk, hp, hd]

theorem tagVerdict_answers (hk : c.kind = .hasTag) (subject : Subject) :
    Answers (c.wellNamed = false) (c.tagVerdict subject) := by
  unfold tagVerdict
  cases hp : c.parameter? "tag" with
  | none => exact answers_ok _
  | some d =>
    cases subject.tags with
    | none => exact answers_ok _
    | some tags =>
      dsimp only
      split
      · exact answers_ok _
      next hd => exact .inr ⟨rfl, by simp [wellNamed, hk, ConditionKind.parameter?, hp, hd]⟩

theorem classVerdict_answers {player : Player} {p : Prop}
    (h : ∃ name, player.className = .text name) : Answers p (c.classVerdict player) := by
  obtain ⟨name, hname⟩ := h
  unfold classVerdict
  rw [hname]
  cases c.parameter? "class_name" <;> exact answers_ok _

theorem qualifies_answers {d? : Option Die} {p : Prop} (h : ∀ d, d? = some d → HasDouble d.value) :
    Answers p (c.qualifies d?) := by
  cases d? with
  | none => exact answers_ok _
  | some d => exact (h d rfl).answers.map _

theorem verdict_answers (hv : v.Ordinary) : Answers (c.wellNamed = false) (c.verdict v) := by
  have hself (pass : Float → Bool) : Answers (c.wellNamed = false) (selfVerdict v pass) :=
    (hv.subject.value_answers (some v.scene.player)).map _
  have hmaximum (pass : Float → Float → Bool) :
      Answers (c.wellNamed = false) (maximumVerdict v pass) :=
    (hv.subject.value_answers (some v.scene.player)).map _
  unfold verdict
  cases hk : c.kind with
  | selfValueAbove | selfValueBelow | selfValueIsMin => exact hself _
  | selfValueIsMax | selfValueBelowHalfMax => exact hmaximum _
  | statAbove | perStatPoint =>
    exact (statValue_answers (by rw [hk]; rfl) v.scene.player).map _
  | classIs => exact classVerdict_answers hv.scene.className
  | hasTag => exact tagVerdict_answers hk v.subject
  | perUsedDie => exact hv.scene.usedCount.answers.map _
  | perQualifyingNeighbor =>
    refine Answers.map ?_ _
    exact (qualifies_answers fun d hd => hv.neighbor hd).bind fun _ =>
      (qualifies_answers fun d hd => hv.neighbor hd).bind fun _ => answers_ok _
  | _ => exact answers_ok _

/-- An evaluation fails only where a list or an object stands for a name. -/
theorem evaluate_answers (hv : v.Ordinary) : Answers (c.wellNamed = false) (c.evaluate v) :=
  (verdict_answers hv).map _

theorem gateOn_of_none {quantity : Except Failure (Option Float)} (h : quantity = .ok none)
    (pass : Float → Bool) : gateOn quantity pass = .ok .passed := by
  rw [h]
  rfl

theorem maximumVerdict_of_unresolved (hs : v.subject.Ordinary)
    (h : v.selfValue = .ok none ∨ v.subject.maximum? = none) (pass : Float → Float → Bool) :
    maximumVerdict v pass = .ok .passed := by
  obtain h | h := h
  · exact gateOn_of_none h _
  · obtain ⟨x, hx⟩ := (hs.value_answers (some v.scene.player) (p := False)).ok id
    unfold maximumVerdict View.selfValue
    rw [hx, h]
    cases x <;> rfl

theorem classVerdict_of_absent (h : c.parameter? "class_name" = none) (player : Player) :
    c.classVerdict player = .ok .passed := by
  unfold classVerdict
  rw [h]

theorem tagVerdict_of_absent (h : c.parameter? "tag" = none) (subject : Subject) :
    c.tagVerdict subject = .ok .passed := by
  unfold tagVerdict
  rw [h]

theorem verdict_of_unresolved (hs : c.kind.readsMaximum → v.subject.Ordinary)
    (h : c.Unresolved v) : c.verdict v = .ok c.fallback := by
  unfold Unresolved at h
  unfold verdict fallback
  generalize c.kind = kind at hs h ⊢
  cases kind with
  | selfValueAbove | selfValueBelow | selfValueIsMin | statAbove => exact gateOn_of_none h _
  | selfValueIsMax | selfValueBelowHalfMax =>
    exact maximumVerdict_of_unresolved (hs rfl) h _
  | healthAbovePercent | healthBelowPercent => exact congrArg Except.ok (if_pos h)
  | perStatPoint => exact congrArg (Except.map fun x => Verdict.scaled (x.getD 0)) h
  | classIs => exact classVerdict_of_absent h v.scene.player
  | hasTag => exact tagVerdict_of_absent h v.subject
  | _ => exact h.elim

theorem evaluate_of_unresolved (hv : v.Ordinary) (h : c.Unresolved v) :
    c.evaluate v = .ok (if c.invert then c.fallback.flipped else c.fallback) := by
  unfold evaluate
  rw [verdict_of_unresolved (fun _ => hv.subject) h]
  rfl

end Condition

namespace Effect

/-- The value source of the effect has no quantity to offer. -/
def Unresolved (e : Effect) (scene : Scene) (self target : Subject) : Prop :=
  match e.source with
  | .selfValue | .selfValueFraction => self.value (some scene.player) = .ok none
  | .neighborPercent => target.value (some scene.player) = .ok none
  | .playerStat => e.sourceStat.isAbsent ∨ scene.player.statNamed e.sourceStat = .ok none
  | _ => False

variable {e : Effect} {scene : Scene} {self target : Subject} {p : Prop}

theorem base_answers (hn : HasDouble scene.usedCount) (hself : self.Ordinary)
    (htarget : target.Ordinary) (hs : e.sourceStat.isName) :
    Answers p (e.base scene self target) := by
  have hstat : Answers p (if e.sourceStat.isAbsent then .ok none
      else scene.player.statNamed e.sourceStat) := by
    split
    · exact answers_ok _
    · exact (scene.player.statNamed_answers e.sourceStat).imp fun h => by simp [hs] at h
  unfold base
  cases e.source with
  | selfValue | selfValueFraction => exact (hself.value_answers (some scene.player)).map _
  | neighborPercent => exact (htarget.value_answers (some scene.player)).map _
  | contextUsedCount => exact hn.answers.map _
  | playerStat => exact hstat.map _
  | _ => exact answers_ok _

theorem base_of_unresolved (h : e.Unresolved scene self target) :
    e.base scene self target = .ok 0 := by
  unfold Unresolved at h
  unfold base
  generalize e.source = source at h ⊢
  cases source with
  | selfValue => exact congrArg (Except.map fun x => x.getD 0) h
  | selfValueFraction | neighborPercent => exact congrArg e.share h
  | playerStat =>
    have hnone : (if e.sourceStat.isAbsent then .ok none
        else scene.player.statNamed e.sourceStat) = .ok none := by
      split
      · rfl
      next hs => exact h.resolve_left hs
    exact congrArg e.share hnone
  | _ => exact h.elim

end Effect

end AffixRules
