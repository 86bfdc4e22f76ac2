import AffixRules.Affix.Reroll
import AffixRules.Equipment
import AffixRules.Store

/-! The pool of affixes in effect for a holder, grouped by category and remembered by source.
Affixes are told apart by number, so that one affix may stand in the pool several times. -/
namespace AffixRules

abbrev AffixId := Nat

structure Pool where
  /-- Every known affix, in the pool or not. -/
  affixes : Store Affix := {}
  /-- Categories in the order of their first use; an emptied one keeps its place. -/
  byCategory : Entries Category (List AffixId) := []
  bySource : Entries Label (List AffixId) := []
  deriving DecidableEq, Inhabited

namespace Pool

/-- The source of the affixes that a run grants. -/
def runSource : String := "run"

def affix (p : Pool) (i : AffixId) : Affix := p.affixes.get i

/-- The pool's members, category by category. -/
def members (p : Pool) : List AffixId := p.byCategory.values.flatten

def size (p : Pool) : Nat := p.members.length

def contains (p : Pool) (i : AffixId) : Bool := p.members.contains i

def inCategory (p : Pool) (c : Category) : List AffixId := (p.byCategory.value? c).getD []

/-- The members of a category, or all of them. -/
def select (p : Pool) (c? : Option Category) : List AffixId := (c?.map p.inCategory).getD p.members

/-- The members of a category with a stat; without a category there are none. -/
def forStat (p : Pool) (c? : Option Category) (stat : Label) : List AffixId :=
  ((c?.map p.inCategory).getD []).filter fun i => (p.affix i).statName = stat

def withTag (p : Pool) (tag : Label) : List AffixId :=
  p.members.filter fun i => (p.affix i).hasTag tag

def fromSource (p : Pool) (source : Label) : List AffixId := (p.bySource.value? source).getD []

/-- Appends to the list at a key. -/
def append {κ : Type} [DecidableEq κ] (es : Entries κ (List AffixId)) (key : κ) (i : AffixId) :
    Entries κ (List AffixId) :=
  es.put key ((es.value? key).getD [] ++ [i])

/-- Makes an affix known without adding it. -/
def introduce (p : Pool) (a : Affix) : AffixId × Pool :=
  let (i, affixes) := p.affixes.alloc a
  (i, { p with affixes })

/-- Adds a known affix, under a source if one is named. -/
def add (p : Pool) (i : AffixId) (source? : Option Label) : Pool :=
  { p with
    byCategory := append p.byCategory (p.affix i).category i
    bySource := match source? with
      | some source => append p.bySource source i
      | none => p.bySource }

/-- Adds a new affix. -/
def insert (p : Pool) (a : Affix) (source? : Option Label) : AffixId × Pool :=
  let (i, q) := p.introduce a
  (i, q.add i source?)

/-- Changes the list of one category, if the category is in use. -/
def editCategory (c : Category) (edit : List AffixId → List AffixId)
    (es : Entries Category (List AffixId)) : Entries Category (List AffixId) :=
  es.map fun (k, is) => (k, if k = c then edit is else is)

/-- Takes the first occurrence out of its category, and every one out of the sources. -/
def remove (p : Pool) (i : AffixId) : Bool × Pool :=
  let c := (p.affix i).category
  if (p.inCategory c).contains i then
    (true,
      { p with
        byCategory := editCategory c (·.erase i) p.byCategory
        bySource := p.bySource.mapValues (·.filter (· ≠ i)) })
  else (false, p)

def dropMember (p : Pool) (i : AffixId) : Pool :=
  { p with byCategory := editCategory (p.affix i).category (·.filter (· ≠ i)) p.byCategory }

/-- Takes out what was added under a source, and says how many entries that were. -/
def removeSource (p : Pool) (source : Label) : Nat × Pool :=
  let owned := p.fromSource source
  (owned.length, owned.foldl dropMember { p with bySource := p.bySource.without source })

/-- Adds new affixes in order under one source. -/
def insertAll (p : Pool) (source? : Option Label) : List Affix → List AffixId × Pool
  | [] => ([], p)
  | a :: as =>
    let (i, q) := p.insert a source?
    let (is, r) := q.insertAll source? as
    (i :: is, r)

/-- Adds copies of an item's affixes under the item's id, up to one that could not be found. -/
def register (p : Pool) (item : Item) : Outcome Pool (List AffixId) :=
  let (is, q) := p.insertAll (some item.id) item.affixes
  ⟨if item.incomplete then .error .unknownAffix else .ok is, q⟩

def unregister (p : Pool) (item : Item) : Nat × Pool := p.removeSource item.id

/-- Empties the pool; the affixes stay known. -/
def clear (p : Pool) : Pool := { p with byCategory := [], bySource := [] }

def ofAffixes (as : List Affix) : Pool := (({} : Pool).insertAll none as).2

variable {σ : Type} [Generator σ]

/-- Rerolls a known affix in place. -/
def reroll (p : Pool) (i : AffixId) (g : σ) : Outcome (Pool × σ) Float :=
  let o := (p.affix i).rollValue g
  match o.answer with
  | .ok value => .done value ({ p with affixes := p.affixes.modify i (·.withValue value) }, o.state)
  | .error e => .failed e (p, o.state)

/-- Adds a rerolled copy of a template under the run's source. -/
def grant (p : Pool) (template : Affix) (g : σ) : Outcome (Pool × σ) AffixId :=
  let o := template.rerolled g
  match o.answer with
  | .ok a =>
    let (i, q) := p.insert a (some (.text runSource))
    .done i (q, o.state)
  | .error e => .failed e (p, o.state)

end Pool

end AffixRules
