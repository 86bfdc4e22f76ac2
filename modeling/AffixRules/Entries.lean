/-! Keyed entries in the order in which their keys were first written. -/
namespace AffixRules

abbrev Entries (κ α : Type) := List (κ × α)

namespace Entries

variable {κ α : Type} [DecidableEq κ]

/-- The value at a key. -/
def value? : Entries κ α → κ → Option α
  | [], _ => none
  | (k, v) :: es, key => if k = key then some v else value? es key

/-- A known key keeps its place, a new one goes to the end. -/
def put : Entries κ α → κ → α → Entries κ α
  | [], key, value => [(key, value)]
  | (k, v) :: es, key, value => if k = key then (k, value) :: es else (k, v) :: put es key value

/-- The entries without a key. -/
def without : Entries κ α → κ → Entries κ α
  | [], _ => []
  | (k, v) :: es, key => if k = key then without es key else (k, v) :: without es key

def mapValues (f : α → α) (es : Entries κ α) : Entries κ α := es.map fun (k, v) => (k, f v)

def keys (es : Entries κ α) : List κ := es.map Prod.fst

def values (es : Entries κ α) : List α := es.map Prod.snd

/-- Later entries win, as if written one after the other. -/
def ofList (pairs : List (κ × α)) : Entries κ α :=
  pairs.foldl (fun es (k, v) => es.put k v) []

@[simp] theorem value?_nil (key : κ) : value? ([] : Entries κ α) key = none := rfl

@[simp] theorem value?_put (es : Entries κ α) (key other : κ) (value : α) :
    (es.put key value).value? other = if key = other then some value else es.value? other := by
  induction es with
  | nil => simp [put, value?]
  | cons e es ih =>
    obtain ⟨k, v⟩ := e
    by_cases hk : k = key
    · subst hk
      by_cases ho : k = other <;> simp [put, value?, ho]
    · by_cases ho : key = other
      · subst ho
        simp [put, value?, hk, ih]
      · simp [put, value?, hk, ih, ho]

@[simp] theorem value?_without (es : Entries κ α) (key other : κ) :
    (es.without key).value? other = if key = other then none else es.value? other := by
  induction es with
  | nil => simp [without]
  | cons e es ih =>
    obtain ⟨k, v⟩ := e
    by_cases hk : k = key
    · subst hk
      by_cases ho : k = other
      · simpa [without, ho] using ih
      · simpa [without, value?, ho] using ih
    · by_cases ho : key = other
      · subst ho
        simpa [without, value?, hk] using ih
      · simp [without, value?, hk, ih, ho]

theorem keys_put (es : Entries κ α) (key : κ) (value : α) :
    (es.put key value).keys = if key ∈ es.keys then es.keys else es.keys ++ [key] := by
  induction es with
  | nil => simp [put, keys]
  | cons e es ih =>
    obtain ⟨k, v⟩ := e
    simp only [keys] at ih
    by_cases hk : k = key
    · simp [put, keys, hk]
    · by_cases hes : key ∈ es.map Prod.fst
      · simp [put, keys, hk, ih, hes]
      · simp [put, keys, hk, ih, hes, Ne.symm hk]

theorem nodup_keys_put {es : Entries κ α} (h : es.keys.Nodup) (key : κ) (value : α) :
    (es.put key value).keys.Nodup := by
  rw [keys_put]
  split
  · exact h
  next hkey =>
    refine List.nodup_append.mpr ⟨h, by simp, fun k hk j hj => ?_⟩
    rw [List.mem_singleton.mp hj]
    exact fun he => hkey (he ▸ hk)

theorem value?_eq_none_iff {es : Entries κ α} {key : κ} : es.value? key = none ↔ key ∉ es.keys := by
  induction es with
  | nil => simp [keys]
  | cons e es ih =>
    obtain ⟨k, v⟩ := e
    by_cases hk : k = key
    · simp [value?, keys, hk]
    · have hne : key ≠ k := fun he => hk he.symm
      simpa [value?, keys, hk, hne] using ih

/-- With each key once, the value at a key is the one that stands under it. -/
theorem value?_eq_some_iff {es : Entries κ α} (h : es.keys.Nodup) {key : κ} {value : α} :
    es.value? key = some value ↔ (key, value) ∈ es := by
  induction es with
  | nil => simp
  | cons e es ih =>
    obtain ⟨k, v⟩ := e
    obtain ⟨hk, hes⟩ := List.nodup_cons.mp h
    by_cases heq : k = key
    · subst heq
      have hnot : (k, value) ∉ es := fun hmem => hk (List.mem_map.mpr ⟨_, hmem, rfl⟩)
      simp [value?, hnot, eq_comm]
    · have hne : key ≠ k := fun he => heq he.symm
      simpa [value?, heq, hne] using ih hes

/-- With each key once, the values are what is found at the keys. -/
theorem map_some_values {es : Entries κ α} (h : es.keys.Nodup) :
    es.values.map some = es.keys.map es.value? := by
  induction es with
  | nil => rfl
  | cons e es ih =>
    obtain ⟨k, v⟩ := e
    obtain ⟨hk, hes⟩ := List.nodup_cons.mp h
    have hrest : (keys es).map (value? ((k, v) :: es)) = (keys es).map (value? es) := by
      refine List.map_congr_left fun j hj => ?_
      have hkj : k ≠ j := fun hkj => hk (hkj ▸ hj)
      simp [value?, hkj]
    have htail := (ih hes).trans hrest.symm
    simp only [values, keys] at htail
    simp [values, keys, value?, htail]

@[simp] theorem value?_mapValues (f : α → α) (es : Entries κ α) (key : κ) :
    (es.mapValues f).value? key = (es.value? key).map f := by
  induction es with
  | nil => rfl
  | cons e es ih =>
    obtain ⟨k, v⟩ := e
    by_cases hk : k = key
    · simp [mapValues, value?, hk]
    · simpa [mapValues, value?, hk] using ih

omit [DecidableEq κ] in
@[simp] theorem keys_mapValues (f : α → α) (es : Entries κ α) : (es.mapValues f).keys = es.keys := by
  simp [mapValues, keys]

end Entries

end AffixRules
