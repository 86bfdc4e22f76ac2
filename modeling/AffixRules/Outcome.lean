import AffixRules.Failure

/-! Outcomes of steps on a state. A failing step keeps what it had already changed. -/
namespace AffixRules

section

variable {α β : Type} {x : Except Failure α}

theorem bind_eq_ok_iff {f : α → Except Failure β} {b : β} :
    x >>= f = .ok b ↔ ∃ a, x = .ok a ∧ f a = .ok b := by
  cases x with
  | error e => simp [bind, Except.bind]
  | ok a => simp [bind, Except.bind]

theorem map_eq_ok_iff {f : α → β} {b : β} : x.map f = .ok b ↔ ∃ a, x = .ok a ∧ f a = b := by
  cases x with
  | error e => simp [Except.map]
  | ok a => simp [Except.map]

/-- All elements of a list have an answer, or the list has none. -/
theorem exists_mapM_iff {f : α → Except Failure β} {as : List α} :
    (∃ bs, as.mapM f = .ok bs) ↔ ∀ a ∈ as, ∃ b, f a = .ok b := by
  induction as with
  | nil => simp [pure, Except.pure]
  | cons a as ih =>
    rw [List.mapM_cons, List.forall_mem_cons, ← ih]
    cases f a with
    | error e => simp [bind, Except.bind]
    | ok b =>
      cases as.mapM f with
      | error e => simp [bind, Except.bind]
      | ok bs => simp [bind, Except.bind, pure, Except.pure]

end

/-- The answer of a step, or why it failed, and the state that it reached. -/
structure Outcome (σ α : Type) where
  answer : Except Failure α
  state : σ

namespace Outcome

variable {σ α β γ : Type}

def done (a : α) (s : σ) : Outcome σ α := ⟨.ok a, s⟩

def failed (e : Failure) (s : σ) : Outcome σ α := ⟨.error e, s⟩

def ofExcept (x : Except Failure α) (s : σ) : Outcome σ α := ⟨x, s⟩

/-- A change that happens as a whole or not at all. -/
def change (f : σ → Except Failure σ) (s : σ) : Outcome σ Unit :=
  match f s with
  | .ok t => done () t
  | .error e => failed e s

/-- The next step runs only after a success. -/
def andThen (o : Outcome σ α) (next : α → σ → Outcome σ β) : Outcome σ β :=
  match o.answer with
  | .ok a => next a o.state
  | .error e => ⟨.error e, o.state⟩

/-- The steps of a list, one after the other, up to the first failure. -/
def forEach (step : γ → σ → Outcome σ Unit) : List γ → σ → Outcome σ Unit
  | [], s => done () s
  | c :: cs, s => (step c s).andThen fun _ t => forEach step cs t

def map (f : α → β) (o : Outcome σ α) : Outcome σ β := ⟨o.answer.map f, o.state⟩

@[simp] theorem andThen_done (a : α) (s : σ) (next : α → σ → Outcome σ β) :
    (done a s).andThen next = next a s := rfl

@[simp] theorem andThen_failed (e : Failure) (s : σ) (next : α → σ → Outcome σ β) :
    (failed e s).andThen next = failed e s := rfl

theorem andThen_assoc (o : Outcome σ α) (f : α → σ → Outcome σ β) (g : β → σ → Outcome σ γ) :
    (o.andThen f).andThen g = o.andThen fun a s => (f a s).andThen g := by
  rcases o with ⟨answer, s⟩
  cases answer <;> rfl

theorem andThen_keeps {p : σ → Prop} {o : Outcome σ α} {next : α → σ → Outcome σ β}
    (h : p o.state) (hn : ∀ a s, p s → p (next a s).state) : p (o.andThen next).state := by
  unfold andThen
  split
  · exact hn _ _ h
  · exact h

theorem andThen_done_eq_map (f : α → β) (o : Outcome σ α) :
    (o.andThen fun a s => done (f a) s) = o.map f := by
  rcases o with ⟨answer, s⟩
  cases answer <;> rfl

/-- A success has gone through both steps. -/
theorem exists_of_andThen_ok {o : Outcome σ α} {next : α → σ → Outcome σ β} {b : β}
    (h : (o.andThen next).answer = .ok b) :
    ∃ a, o.answer = .ok a ∧ (next a o.state).answer = .ok b ∧
      o.andThen next = next a o.state := by
  rcases o with ⟨answer, s⟩
  cases answer with
  | error e => cases h
  | ok a => exact ⟨a, rfl, h, rfl⟩

theorem exists_of_map_ok {f : α → β} {o : Outcome σ α} {b : β} (h : (o.map f).answer = .ok b) :
    ∃ a, o.answer = .ok a ∧ f a = b := by
  rcases o with ⟨answer, s⟩
  cases answer with
  | error e => cases h
  | ok a => exact ⟨a, rfl, by cases h; rfl⟩

theorem forEach_done (f : σ → γ → σ) (cs : List γ) (s : σ) :
    forEach (fun c t => done () (f t c)) cs s = done () (cs.foldl f s) := by
  induction cs generalizing s with
  | nil => rfl
  | cons c cs ih => simp [forEach, ih]

/-- What every step keeps, a run keeps, failures included. -/
theorem forEach_keeps {step : γ → σ → Outcome σ Unit} {p : σ → Prop} {cs : List γ}
    (h : ∀ c ∈ cs, ∀ s, p s → p (step c s).state) {s : σ} (hs : p s) :
    p (forEach step cs s).state := by
  induction cs generalizing s with
  | nil => exact hs
  | cons c cs ih =>
    have hc := h c (by simp) s hs
    have ht := fun t ht => ih (fun d hd => h d (by simp [hd])) (s := t) ht
    unfold forEach andThen
    split
    · exact ht _ hc
    · exact hc

end Outcome

end AffixRules
