import AffixRules.Affix.Magnitude
import AffixRules.Pool.Basic

/-! Sums, products and stats over a pool. Blocked affixes contribute nothing. -/
namespace AffixRules

namespace Affix

/-- A stat affix without an entity calls its stat its own. -/
def subject (a : Affix) (given : Subject) : Subject :=
  match given with
  | .none => if a.statName.isAbsent then .none else .ofLabel a.statName
  | s => s

def verdictIn (a : Affix) (context : Context) (given : Subject) : Except Failure Verdict :=
  Condition.evaluateIn a.condition? context (a.subject given)

/-- The value of one affix, zero when blocked. -/
def valueIn (a : Affix) (context : Context) (given : Subject) : Except Failure Float := do
  let v ← a.verdictIn context given
  a.effect.magnitude context.toScene (a.subject given) .none v

end Affix

/-- An affix that is not blocked, with its value. -/
structure Contribution where
  affix : Affix
  verdict : Verdict
  value : Float
  deriving DecidableEq, Inhabited

def contributions (context : Context) : List Affix → Except Failure (List Contribution)
  | [] => .ok []
  | a :: as => do
    let v ← a.verdictIn context .none
    if v.blocked then contributions context as
    else
      let value ← a.effect.magnitude context.toScene (a.subject .none) .none v
      let rest ← contributions context as
      pure (⟨a, v, value⟩ :: rest)

/-- Left to right, from zero. -/
def total (cs : List Contribution) : Float := cs.foldl (fun x c => x + c.value) 0

/-- Left to right, from one. -/
def product (cs : List Contribution) : Float := cs.foldl (fun x c => x * c.value) 1

theorem total_eq : total = fun cs => (cs.map (·.value)).foldl (· + ·) 0 := by
  funext cs
  exact (List.foldl_map ..).symm

theorem product_eq : product = fun cs => (cs.map (·.value)).foldl (· * ·) 1 := by
  funext cs
  exact (List.foldl_map ..).symm

namespace Pool

/-- The affixes of a category, or of the whole pool; or those of a category with one stat. -/
def matching (p : Pool) (c? : Option Category) (stat? : Option Label) : List Affix :=
  (stat?.elim (p.select c?) (p.forStat c?)).map p.affix

def categorySum (p : Pool) (context : Context) (c? : Option Category) (stat? : Option Label) :
    Except Failure Float :=
  (contributions context (p.matching c? stat?)).map total

def categoryProduct (p : Pool) (context : Context) (c? : Option Category) (stat? : Option Label) :
    Except Failure Float :=
  (contributions context (p.matching c? stat?)).map product

/-- The base and the flat terms of a stat, times its multipliers. -/
def stat (p : Pool) (context : Context) (name : Label) (base : Float) : Except Failure Float := do
  let flat ← p.categorySum context (some .statFlat) (some name)
  let factor ← p.categoryProduct context (some .statMultiplier) (some name)
  pure ((base + flat) * factor)

/-- The affixes that grant an action now. -/
def grantedActions (p : Pool) (context : Context) : Except Failure (List Affix) :=
  (contributions context (p.matching (some .grantedAction) none)).map fun cs => cs.map (·.affix)

/-- The ids of the granted actions; an empty id counts as none. -/
def grantedActionIds (p : Pool) (context : Context) : Except Failure (List Label) :=
  (p.grantedActions context).map fun as =>
    (as.filterMap Affix.grantedActionId?).filter fun id => !id.isAbsent

def taggedContributions (p : Pool) (context : Context) (tag : Label) :
    Except Failure (List Contribution) :=
  contributions context ((p.withTag tag).map p.affix)

def tagSum (p : Pool) (context : Context) (tag : Label) : Except Failure Float :=
  (p.taggedContributions context tag).map total

def tagCount (p : Pool) (context : Context) (tag : Label) : Except Failure Nat :=
  (p.taggedContributions context tag).map List.length

def hasTagged (p : Pool) (context : Context) (tag : Label) : Except Failure Bool :=
  (p.tagCount context tag).map fun n => decide (0 < n)

end Pool

end AffixRules
