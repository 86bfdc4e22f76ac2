import AffixRules.Content.Library

/-! The library's own content: templates of dice, item and run affixes, and the offer catalog. -/
namespace AffixRules.Library

/-- Affixes of dice. -/
def diceSheets : List AffixSheet :=
  [{ id := "ember_core", name := "Ember Core"
     description := "On roll, this die becomes Fire."
     trigger := .onRoll, category := .dice
     kind := .setElement
     payload? := some { element? := some .fire }
     tags := ["fire"] },
   { id := "hand_off", name := "Hand Off"
     description := "On use, the die to the right gains +2."
     trigger := .onUse, category := .dice, selector := .right
     kind := .flatBonus
     value := 2
     range? := some (1, 3) },
   { id := "echoing_strike", name := "Echoing Strike"
     description := "On use, the die to the right gains 50% of its own value."
     trigger := .onUse, category := .dice, selector := .right
     kind := .flatBonus
     source := .neighborPercent
     value := 0.5 },
   { id := "siphon", name := "Siphon"
     description := "On use with a value of 4 or more, heal for 25% of damage dealt."
     trigger := .onUse, category := .dice
     kind := .leechHeal
     payload? := some { percent? := some 0.25 }
     condition? := some { kind := .selfValueAbove, threshold := 4 }
     tags := ["healing"] },
   { id := "volatile", name := "Volatile"
     description := "On use at its lowest value, this die is destroyed."
     trigger := .onUse, category := .dice
     kind := .destroySelf
     condition? := some { kind := .selfValueIsMin } },
   { id := "rally_cry", name := "Rally Cry"
     description := "On use, every other die gains +1 for 2 turns."
     trigger := .onUse, category := .dice
     kind := .createCombatModifier
     value := 1
     payload? := some { duration := .turns, turns := 2, filter := .allExceptSource } },
   { id := "parasite", name := "Parasite"
     description := "On use, the die to the left loses 1 and this die gains 2."
     trigger := .onUse, category := .dice, selector := .left
     kind := .flatBonus
     value := -1
     subEffects :=
       [{ kind := .flatBonus, value := 2, target? := some .self }] },
   { id := "chain_reaction", name := "Chain Reaction"
     description := "On use, gain +1 for every die used this action."
     trigger := .onUse, category := .dice
     kind := .flatBonus
     value := 1
     condition? := some { kind := .perUsedDie } },
   { id := "floor_guard", name := "Floor Guard"
     description := "On roll, this die is at least 3."
     trigger := .onRoll, category := .dice
     kind := .setMinimum
     value := 3 },
   { id := "prism", name := "Prism"
     description := "On roll, this die takes a random element."
     trigger := .onRoll, category := .dice
     kind := .randomizeElement
     payload? := some { elements := [.fire, .ice, .shock] } },
   { id := "keystone", name := "Keystone"
     description := "On use with both neighbors used, every other die gains +3."
     trigger := .onUse, category := .dice, selector := .allExceptSource
     kind := .flatBonus
     value := 3
     condition? := some { kind := .neighborsUsed } },
   { id := "hunters_mark", name := "Hunter's Mark"
     description := "On roll, mark both neighbors. A low roll also gains +1."
     trigger := .onRoll, category := .dice, selector := .neighbors
     kind := .addTag
     payload? := some { tag? := some "marked" }
     subEffects :=
       [{ kind := .flatBonus, value := 1, target? := some .self
          condition? := some { kind := .selfValueBelowHalfMax } }] }]

/-- Affixes of items. -/
def itemSheets : List AffixSheet :=
  [{ id := "might", name := "of Might"
     description := "+1 to +5 Strength."
     category := .statFlat
     value := 3
     statName := "strength"
     range? := some (1, 5) },
   { id := "giant_strength", name := "of the Giant"
     description := "+5 Strength."
     category := .statFlat
     value := 5
     statName := "strength" },
   { id := "brute_force", name := "Brutal"
     description := "x1.2 Strength while wielding a heavy weapon."
     category := .statMultiplier
     value := 1.2
     statName := "strength"
     condition? := some { kind := .hasHeavyWeapon } },
   { id := "twin_fangs", name := "Twin Fangs"
     description := "+4 damage while dual wielding."
     category := .damageFlat
     value := 4
     condition? := some { kind := .hasDualWield }
     tags := ["physical"] },
   { id := "collectors_edge", name := "Collector's Edge"
     description := "+1 damage per rarity rank of equipped items."
     category := .damageFlat
     value := 1
     condition? := some { kind := .perEquipmentRarity }
     tags := ["physical"] },
   { id := "fire_attunement", name := "Fire Attunement"
     description := "x1.25 fire damage."
     category := .elementalMultiplier
     value := 1.25
     tags := ["fire"] },
   { id := "last_stand", name := "Last Stand"
     description := "+10 defense at 30% health or less."
     category := .defenseFlat
     value := 10
     condition? := some { kind := .healthBelowPercent, threshold := 0.3 } },
   { id := "whirlwind", name := "Whirlwind"
     description := "Grants Whirlwind while wielding a heavy weapon."
     category := .grantedAction
     kind := .grantAction
     payload? := some { action? := some "whirlwind" }
     condition? := some { kind := .hasHeavyWeapon } },
   { id := "shield_bash", name := "Shield Bash"
     description := "Grants Shield Bash to warriors."
     category := .grantedAction
     kind := .grantAction
     payload? := some { action? := some "shield_bash" }
     condition? := some { kind := .classIs, parameters := [("class_name", .text "warrior")] } },
   { id := "scholar", name := "of the Scholar"
     description := "Intelligence equal to half your Wisdom."
     category := .statFlat
     source := .playerStat
     value := 0.5
     statName := "intelligence"
     sourceStat := "wisdom" },
   { id := "battle_hardened", name := "Battle Hardened"
     description := "+2 defense. With 4 or more slots filled, +5 more."
     category := .defenseFlat
     value := 2
     subEffects :=
       [{ kind := .statBonus, value := 5
          condition? := some { kind := .minEquipmentSlotsFilled, threshold := 4 } }] }]

/-- Affixes that a run grants. -/
def runSheets : List AffixSheet :=
  [{ id := "run_vigor", name := "Vigor"
     description := "+8 to +12 max health."
     category := .statFlat
     value := 10
     statName := "max_health"
     range? := some (8, 12)
     tags := ["vitality"] },
   { id := "run_berserker", name := "Berserker"
     description := "x1.3 damage."
     category := .damageMultiplier
     value := 1.3
     tags := ["rage"] },
   { id := "run_stoic", name := "Stoic"
     description := "+5 defense."
     category := .defenseFlat
     value := 5
     tags := ["calm"] },
   { id := "run_pyromancer", name := "Pyromancer"
     description := "x1.5 fire damage."
     category := .elementalMultiplier
     value := 1.5
     tags := ["fire"] },
   { id := "run_glacier", name := "Glacier"
     description := "x1.5 ice damage."
     category := .elementalMultiplier
     value := 1.5
     tags := ["ice"] },
   { id := "run_greed", name := "Greed"
     description := "+20% gold found."
     category := .misc
     value := 0.2
     tags := ["economy"] }]

/-- Offers of a run. -/
def offers : List OfferEntry :=
  [{ affixId := "run_vigor", name := "Vigor"
     description := "+8 to +12 max health."
     rarity := .common, tags := ["vitality"]
     maxStacks := 5, weight := 10 },
   { affixId := "run_greed", name := "Greed"
     description := "+20% gold found."
     rarity := .uncommon, tags := ["economy"]
     maxStacks := 3, weight := 6 },
   { affixId := "run_berserker", name := "Berserker"
     description := "x1.3 damage. Cannot be taken with Stoic."
     rarity := .rare, tags := ["rage"], excludes := ["calm"]
     maxStacks := 1, weight := 8 },
   { affixId := "run_stoic", name := "Stoic"
     description := "+5 defense. Cannot be taken with Berserker."
     rarity := .rare, tags := ["calm"], excludes := ["rage"]
     maxStacks := 1, weight := 8 },
   { affixId := "run_pyromancer", name := "Pyromancer"
     description := "x1.5 fire damage. Cannot be taken with Glacier."
     rarity := .epic, tags := ["fire"], excludes := ["ice"]
     maxStacks := 1, weight := 8 },
   { affixId := "run_glacier", name := "Glacier"
     description := "x1.5 ice damage. Cannot be taken with Pyromancer."
     rarity := .epic, tags := ["ice"], excludes := ["fire"]
     maxStacks := 1, weight := 8 }]

def shipped : Library :=
  { dice := diceSheets.map AffixSheet.toAffix
    item := itemSheets.map AffixSheet.toAffix
    run := runSheets.map AffixSheet.toAffix
    catalog := offers }

end AffixRules.Library
