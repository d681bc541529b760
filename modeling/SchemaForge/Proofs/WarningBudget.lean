import Mathlib.Algebra.Ring.Nat
import SchemaForge.Proofs.ScanSteps

/-! What unknown types cost. A type that has no form of its own is taken as unknown and reported, so unknown types
that the source does not ask for are paid with warnings. The words by which a source asks for them are a potential
that readers may spend: what a reader yields costs no more than what it was given, the warnings it collects and the
words it takes. -/
namespace SchemaForge

def spellsUnknown (token : Token) : Bool :=
  token.kind = .word "any" || token.kind = .word "unknown"

/-- How many of the tokens are words for the unknown type. -/
def spelledUnknowns (tokens : List Token) : Nat :=
  tokens.countP spellsUnknown

/-- Words that are still left were among the tokens before. -/
theorem spelledUnknowns_le_of_suffix {rest tokens : List Token} (hSuffix : rest <:+ tokens) :
    spelledUnknowns rest ≤ spelledUnknowns tokens :=
  hSuffix.sublist.countP_le

namespace TypeTerm

mutual

def unknowns : TypeTerm → Nat
  | .unknown => 1
  | .array element => element.unknowns
  | .tuple elements rest =>
      unknownsOfAll elements + (match rest with
        | none => 0
        | some term => term.unknowns)
  | .union members => unknownsOfAll members
  | .primitive _ => 0
  | .literal _ => 0
  | .reference _ => 0
  | .date => 0
  | .anyObject => 0

def unknownsOfAll : List TypeTerm → Nat
  | [] => 0
  | term :: rest => term.unknowns + unknownsOfAll rest

end

end TypeTerm

def unknownsOfProperties (properties : List Property) : Nat :=
  (properties.map fun property => property.type.unknowns).sum

def Body.unknowns : Body → Nat
  | .object properties => unknownsOfProperties properties
  | .alias term => term.unknowns

/-- The value costs no more than the budget, the warnings and the words that were taken. -/
def Reading.Pays {α : Type} (cost : α → Nat) (budget : Nat) (tokens : List Token) : Reading α → Prop
  | .done value rest warnings =>
      cost value + spelledUnknowns rest ≤ budget + warnings.length + spelledUnknowns tokens
  | .refused _ _ => True

/-- Warnings that were raised before add to the budget, and so do words that were taken before. -/
theorem Reading.Pays.after {α : Type} {cost : α → Nat} {budget given : Nat} {tokens rest : List Token}
    {reading : Reading α} (hReading : reading.Pays cost given rest) (earlier : List Warning)
    (hGiven : given + spelledUnknowns rest ≤ budget + earlier.length + spelledUnknowns tokens) :
    (reading.after earlier).Pays cost budget tokens := by
  cases reading with
  | refused error warnings => trivial
  | done value left warnings =>
      have hLeft : cost value + spelledUnknowns left ≤ given + warnings.length + spelledUnknowns rest := hReading
      simp only [Reading.after, Reading.Pays, List.length_append]
      omega

/-- The budget may be counted from tokens further back. -/
theorem Reading.Pays.mono {α : Type} {cost : α → Nat} {budget given : Nat} {tokens rest : List Token}
    {reading : Reading α} (hReading : reading.Pays cost given rest)
    (hGiven : given + spelledUnknowns rest ≤ budget + spelledUnknowns tokens) :
    reading.Pays cost budget tokens := by
  rw [← Reading.after_nil reading]
  exact hReading.after [] hGiven

namespace Reader

variable {α β : Type} {cost : α → Nat} {price : β → Nat} {budget : Nat}

/-- Whatever the reader yields is paid for out of the budget. -/
def Pays (cost : α → Nat) (budget : Nat) (reader : Reader α) : Prop :=
  ∀ final tokens, (reader final tokens).Pays cost budget tokens

theorem Pays.weaken {reader : Reader α} {less : Nat} (hReader : Pays cost less reader) (hLess : less ≤ budget) :
    Pays cost budget reader :=
  fun final tokens => (hReader final tokens).mono (Nat.add_le_add_right hLess _)

/-- What the first reader leaves of its budget and what was kept of it are there for the next one. -/
theorem pays_bind {first : Reader α} {next : α → Reader β} {final : Position} {tokens : List Token} {kept : Nat}
    (hFirst : (first final tokens).Pays cost budget tokens)
    (hNext : ∀ value, Pays price (cost value + kept) (next value)) :
    ((first >>= next) final tokens).Pays price (budget + kept) tokens := by
  change (andThen first next final tokens).Pays price (budget + kept) tokens
  unfold andThen
  cases hReading : first final tokens with
  | refused error warnings => trivial
  | done value rest warnings =>
      rw [hReading] at hFirst
      have hValue : cost value + spelledUnknowns rest ≤ budget + warnings.length + spelledUnknowns tokens := hFirst
      apply (hNext value final rest).after warnings
      omega

/-- What the first reader yields is the budget of the second. -/
theorem Pays.bind {first : Reader α} {next : α → Reader β} (hFirst : Pays cost budget first)
    (hNext : ∀ value, Pays price (cost value) (next value)) : Pays price budget (first >>= next) := by
  intro final tokens
  have hAll (value : α) : Pays price (cost value + 0) (next value) := hNext value
  exact pays_bind (hFirst final tokens) hAll

/-- A reader that needs no budget leaves all of it. -/
theorem Pays.bind_keeping {first : Reader α} {next : α → Reader β} (hFirst : Pays cost 0 first)
    (hNext : ∀ value, Pays price (cost value + budget) (next value)) : Pays price budget (first >>= next) := by
  intro final tokens
  have hBoth := pays_bind (hFirst final tokens) hNext
  rwa [Nat.zero_add] at hBoth

/-- A reader whose value is not kept costs nothing, whatever it is. -/
theorem pays_behind {first : Reader β} {next : β → Reader α} {final : Position} {tokens : List Token}
    (hFirst : (first final tokens).LeavesEndOf tokens) (hNext : ∀ value, Pays cost budget (next value)) :
    ((first >>= next) final tokens).Pays cost budget tokens := by
  have hFree : (first final tokens).Pays (fun _ => 0) 0 tokens := by
    cases hReading : first final tokens with
    | refused error warnings => trivial
    | done value rest warnings =>
        rw [hReading] at hFirst
        have hRest := spelledUnknowns_le_of_suffix hFirst
        simp only [Reading.Pays]
        omega
  have hBoth := pays_bind hFree fun value => (hNext value).weaken (Nat.le_add_left budget 0)
  rwa [Nat.zero_add] at hBoth

/-- A reader whose value is dropped leaves the budget as it is; words it took are lost, never owed. -/
theorem Pays.behind {first : Reader β} {next : β → Reader α} (hFirst : Advances first)
    (hNext : ∀ value, Pays cost budget (next value)) : Pays cost budget (first >>= next) :=
  fun final tokens => pays_behind (hFirst final tokens) hNext

theorem Pays.pure {value : α} (hCost : cost value ≤ budget) : Pays cost budget (pure value) := by
  intro final tokens
  exact Nat.add_le_add_right hCost _

/-- A warning is worth one unknown type. -/
theorem pays_warn_bind {next : Unit → Reader α} {final : Position} {tokens : List Token}
    (hNext : (next () final tokens).Pays cost (budget + 1) tokens) (warning : Warning) :
    ((warn warning >>= next) final tokens).Pays cost budget tokens := by
  change ((next () final tokens).after [warning]).Pays cost budget tokens
  exact hNext.after [warning] (Nat.le_refl _)

/-- A warning pays for one unknown type. -/
theorem Pays.warn_bind {next : Unit → Reader α} (hNext : Pays cost (budget + 1) (next ())) (warning : Warning) :
    Pays cost budget (warn warning >>= next) :=
  fun final tokens => pays_warn_bind (hNext final tokens) warning

theorem Pays.refuse (problem : SyntaxProblem) : Pays cost budget (refuse problem) := by
  intro final tokens
  cases tokens <;> trivial

theorem Pays.refuseNext (expected : Expectation) : Pays cost budget (refuseNext expected) :=
  fun final tokens => Pays.refuse _ final tokens

theorem Pays.ite {condition : Prop} [Decidable condition] {yes no : Reader α}
    (hYes : condition → Pays cost budget yes) (hNo : ¬ condition → Pays cost budget no) :
    Pays cost budget (if condition then yes else no) := by
  split
  case isTrue hCondition => exact hYes hCondition
  case isFalse hCondition => exact hNo hCondition

/-- No mark spells the unknown type, so taking one changes no budget. -/
theorem Pays.if_accepted {mark : Mark} {yes no : Reader α} (hYes : Pays cost budget yes)
    (hNo : Pays cost budget no) :
    Pays cost budget (Reader.accept mark >>= fun accepted => if accepted then yes else no) :=
  Pays.behind (Advances.accept mark) fun _ => Pays.ite (fun _ => hYes) fun _ => hNo

/-- A reader that looks at all tokens that are left. -/
theorem Pays.remaining_bind {next : List Token → Reader α}
    (hNext : ∀ final tokens, (next tokens final tokens).Pays cost budget tokens) :
    Pays cost budget (remaining >>= next) := by
  intro final tokens
  rw [Reader.remaining_bind]
  exact hNext final tokens

theorem Pays.if_remaining {look : List Token → Bool} {yes no : Reader α} (hYes : Pays cost budget yes)
    (hNo : Pays cost budget no) : Pays cost budget (remaining >>= fun tokens => if look tokens then yes else no) :=
  Pays.remaining_bind fun final tokens => Pays.ite (fun _ => hYes) (fun _ => hNo) final tokens

/-- Words among the tokens that are passed over are lost, never owed. -/
theorem pays_continueAt_bind {next : Unit → Reader α} (hNext : Pays cost budget (next ())) {rest tokens : List Token}
    (hSuffix : rest <:+ tokens) (final : Position) :
    ((continueAt rest >>= next) final tokens).Pays cost budget tokens := by
  rw [continueAt_bind]
  exact (hNext final rest).mono (Nat.add_le_add_left (spelledUnknowns_le_of_suffix hSuffix) budget)

theorem Pays.skip_bind {skip : List Token → List Token} (hSkip : ∀ tokens, skip tokens <:+ tokens)
    {next : List Token → Unit → Reader α} (hNext : ∀ tokens, Pays cost budget (next tokens ())) :
    Pays cost budget (remaining >>= fun tokens => continueAt (skip tokens) >>= next tokens) :=
  Pays.remaining_bind fun final tokens => pays_continueAt_bind (hNext tokens) (hSkip tokens) final

/-- Items that need no budget need none together. The induction is on the bound on their number. -/
theorem Pays.eachAfter {mark : Mark} {item : Reader α} (hItem : Pays cost 0 item) (bound : Nat) :
    Pays (fun values => (values.map cost).sum) 0 (eachAfter mark item bound) := by
  induction bound with
  | zero => exact Pays.pure (Nat.le_refl 0)
  | succ bound ih =>
      refine Pays.if_accepted ?_ (Pays.pure (Nat.le_refl 0))
      apply hItem.bind
      intro value
      apply ih.bind_keeping
      intro values
      apply Pays.pure
      rw [List.map_cons, List.sum_cons, Nat.add_comm]

end Reader

namespace Grammar

open Reader TypeTerm

section Types

variable {operand : Reader TypeTerm} (hAdvances : Advances operand) (hOperand : Pays unknowns 0 operand)

include hAdvances

include hOperand

end Types

end Grammar

end SchemaForge
