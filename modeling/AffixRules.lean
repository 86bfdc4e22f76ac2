import AffixRules.Number.Written
import AffixRules.Number.Rounding
import AffixRules.Number.Numeral
import AffixRules.Text.Quoted
import AffixRules.Text.Lowercase
import AffixRules.Text.Blank
import AffixRules.Document.Shown
import AffixRules.Document.Writer
import AffixRules.Document.Reader
import AffixRules.Affix.Reroll
import AffixRules.Store
import AffixRules.Scene
import AffixRules.Die
import AffixRules.Affix.Magnitude
import AffixRules.Pool.Compound
import AffixRules.Modifier.Active
import AffixRules.Hand.Steps
import AffixRules.Content.Library
import AffixRules.Settings
import AffixRules.Content.Shipped
import AffixRules.Record.Scene
import AffixRules.Record.Offer
import AffixRules.Proofs.Hand.Ledger
import AffixRules.Proofs.Offer.Picks
import AffixRules.Proofs.Hand.Tally
import AffixRules.Proofs.Hand.Use
import AffixRules.Proofs.Equipment.TwoHanded
import AffixRules.Proofs.Pool.Lookup
import AffixRules.Proofs.Pool.Log
import AffixRules.Proofs.Content.Templates
import AffixRules.Proofs.Dispatch.DieByDie
import AffixRules.Proofs.Dispatch.Expansion
import AffixRules.Proofs.Dispatch.Parts
import AffixRules.Proofs.Hand.Inert
import AffixRules.Proofs.Modifier.Lifetime
import AffixRules.Proofs.Hand.Neighbors
import AffixRules.Proofs.Condition.Fallback
import AffixRules.Proofs.Dispatch.Completion
import AffixRules.Proofs.Pool.Stat
import AffixRules.Proofs.Modifier.DieValue
import AffixRules.Proofs.Dispatch.Payloads
import AffixRules.Proofs.Content.Grantable
import AffixRules.Proofs.Pool.Registration
import AffixRules.Proofs.Dispatch.FlatBonus
import AffixRules.Proofs.Condition.Slotless
import AffixRules.Proofs.Pool.Gating
import AffixRules.Proofs.Affix.Range
import AffixRules.Proofs.Pool.Agreement
import AffixRules.Proofs.Dispatch.Frame
import AffixRules.Proofs.Modifier.Reach
import AffixRules.Proofs.Offer.Extension
import AffixRules.Proofs.Offer.Share
import AffixRules.Proofs.Pool.Aggregates
import AffixRules.Proofs.Equipment.Unequip
import AffixRules.Proofs.Modifier.RoundTrip
import AffixRules.Proofs.Condition.Unanswerable
import AffixRules.Proofs.Hand.Refusal
import AffixRules.Proofs.Hand.Targets
import AffixRules.Proofs.Content.Payload
