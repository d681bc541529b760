import Mathlib.Data.Finset.Card
import Mathlib.Order.Bounds.Defs
import SchemaForge.Proofs.Demands

/-! The checker decides the greatest relation that satisfies the clauses of the schemas. At one place the
relations that follow more and more references shrink; each step that changes anything loses a name of the
table, so they are settled once as many references are followed as there are names. Nothing is assumed about
the table: references may be dangling, and declarations may refer to themselves in any way. -/
namespace SchemaForge

variable (table : SchemaTable) (limit : Nat)

/-- The checker for missing members that the checker of a candidate uses. Absence has no members. -/
def missingFor : Option Json → Checker
  | none => fun _ _ => []
  | some _ => absentChecker table limit

/-- The checker of a candidate that follows a given number of references at its own place, and as many as
the limit allows at the places of its parts. -/
def placeChecker (hops : Nat) (candidate : Option Json) : Checker :=
  violationsWithin table (missingFor table limit candidate) (siteOf (checkerOf table limit) candidate) hops

/-- What is missing in a document that is present is checked as absent. -/
theorem missingFor_of_ne_none {candidate : Option Json} (hPresent : candidate ≠ none) :
    missingFor table limit candidate = checkerOf table limit none := by
  cases candidate with
  | none => exact absurd rfl hPresent
  | some document => rfl

/-- The recursion over elements is a map, now that each element has its checker. -/
theorem elementCheckers_eq_map (elements : List Json) :
    elementCheckers table limit elements =
      elements.map fun document => checkerOf table limit (some document) := by
  induction elements with
  | nil => rfl
  | cons document rest ih => simp [elementCheckers, checkerOf, ih]

theorem memberCheckers_eq_map (members : List (String × Json)) :
    memberCheckers table limit members =
      members.map fun member => (member.1, checkerOf table limit (some member.2)) := by
  induction members with
  | nil => rfl
  | cons member rest ih => simp [memberCheckers, checkerOf, ih]

/-- The checker of a candidate follows one reference more than the limit at its own place. -/
theorem checkerOf_eq_placeChecker (candidate : Option Json) :
    checkerOf table limit candidate = placeChecker table limit (limit + 1) candidate := by
  rcases candidate with _ | document
  · rfl
  cases document with
  | array elements =>
      simp only [checkerOf, Json.checker, placeChecker, siteOf, missingFor, elementCheckers_eq_map]
  | object members =>
      simp only [checkerOf, Json.checker, placeChecker, siteOf, missingFor, memberCheckers_eq_map]
  | _ => simp only [checkerOf, Json.checker, placeChecker, siteOf, missingFor]

/-- One reference is followed, and what it leads to is checked with one reference less. -/
theorem placeChecker_succ (hops : Nat) (candidate : Option Json) :
    placeChecker table limit (hops + 1) candidate =
      violationsAt (fun path name => (table.find? name).elim [] (placeChecker table limit hops candidate path))
        (missingFor table limit candidate) (siteOf (checkerOf table limit) candidate) := by
  unfold placeChecker
  rw [violationsWithin]
  congr 1
  funext path name
  cases table.find? name with
  | none => rfl
  | some target => rfl

/-- The schemas without a violation when a given number of references is followed at the place of the
candidate. -/
def AcceptedWithin (hops : Nat) : Acceptance :=
  fun schema candidate => placeChecker table limit hops candidate [] schema = []

/-- What the target of a reference is asked for when a given number of references may still be followed:
nothing at all if the reference itself is one too many. -/
def TargetsWithin : Nat → Acceptance
  | 0 => fun _ _ => True
  | hops + 1 => AcceptedWithin table limit hops

/-- The two ways in which a clause can be read at the place of a candidate agree. -/
theorem demands_acceptedHere_iff {follow : Path → String → List Violation} {hops : Nat}
    {parts targets : Acceptance} {schema : Schema} {candidate : Option Json}
    (hSame : ∀ inner, violationsAt follow (missingFor table limit candidate)
      (siteOf (checkerOf table limit) candidate) [] inner = placeChecker table limit hops candidate [] inner) :
    Demands table (AcceptedHere follow (missingFor table limit candidate) (checkerOf table limit))
        parts targets schema candidate ↔
      Demands table (AcceptedWithin table limit hops) parts targets schema candidate := by
  constructor
  · refine Demands.mono (fun inner _ hHere => ?_) (fun _ _ _ hPart => hPart) (fun _ _ _ hTarget => hTarget)
    exact (hSame inner).symm.trans hHere
  · refine Demands.mono (fun inner _ hHere => ?_) (fun _ _ _ hPart => hPart) (fun _ _ _ hTarget => hTarget)
    exact (hSame inner).trans hHere

/-- Following references step by step: no violation is found, on whatever path, exactly when the clause of
the schema holds with one reference less for the targets. -/
theorem placeChecker_eq_nil_iff (candidate : Option Json) (hops : Nat) (path : Path) (schema : Schema) :
    placeChecker table limit hops candidate path schema = [] ↔
      Demands table (AcceptedWithin table limit hops) (AcceptedWithin table limit (limit + 1))
        (TargetsWithin table limit hops) schema candidate := by
  -- The outer induction is on the candidate, since its parts are checked with the full limit; the inner
  -- one is on the number of references.
  induction hSize : candidateSize candidate using Nat.strong_induction_on generalizing candidate hops path schema with
  | _ size ih =>
      subst hSize
      have hParts : ∀ part, candidateSize part < candidateSize candidate → ∀ path schema,
          checkerOf table limit part path schema = [] ↔
            AcceptedWithin table limit (limit + 1) schema part := by
        intro part hSmaller path schema
        rw [checkerOf_eq_placeChecker]
        exact (ih _ hSmaller part (limit + 1) path schema rfl).trans
          (ih _ hSmaller part (limit + 1) [] schema rfl).symm
      induction hops generalizing path schema with
      | zero =>
          have hFollow : ∀ (path : Path) (name : String), ([] : List Violation) = [] ↔
              ∀ target, table.find? name = some target →
                TargetsWithin table limit 0 target candidate := by
            simp [TargetsWithin]
          rw [← demands_acceptedHere_iff table limit (fun _ => rfl)]
          exact violationsAt_eq_nil_iff hFollow (missingFor_of_ne_none table limit) hParts schema path
      | succ hops ihHops =>
          have hTarget (path : Path) (target : Schema) :
              placeChecker table limit hops candidate path target = [] ↔
                AcceptedWithin table limit hops target candidate :=
            (ihHops path target).trans (ihHops [] target).symm
          have hFollow : ∀ (path : Path) (name : String),
              (table.find? name).elim [] (placeChecker table limit hops candidate path) = [] ↔
              ∀ target, table.find? name = some target →
                TargetsWithin table limit (hops + 1) target candidate := by
            intro path name
            cases hFind : table.find? name with
            | none => simp
            | some target => simp [hTarget, TargetsWithin]
          rw [placeChecker_succ, ← demands_acceptedHere_iff table limit fun inner => by rw [placeChecker_succ]]
          exact violationsAt_eq_nil_iff hFollow (missingFor_of_ne_none table limit) hParts schema path

/-- Being accepted with a number of references to follow is given by the clauses, one reference at a time. -/
theorem acceptedWithin_iff_demands (hops : Nat) (schema : Schema) (candidate : Option Json) :
    AcceptedWithin table limit hops schema candidate ↔
      Demands table (AcceptedWithin table limit hops) (AcceptedWithin table limit (limit + 1))
        (TargetsWithin table limit hops) schema candidate :=
  placeChecker_eq_nil_iff table limit candidate hops [] schema

variable {table limit}

/-- A relation whose clauses hold at one place, with what is known already of parts and targets, is
accepted there. The induction is on the schema, since `optional` and `union` stay at the place. -/
theorem AcceptedWithin.of_demands {relation : Acceptance} {hops : Nat} {candidate : Option Json}
    (hClauses : ∀ schema, relation schema candidate →
      Demands table relation (AcceptedWithin table limit (limit + 1)) (TargetsWithin table limit hops)
        schema candidate)
    {schema : Schema} (hRelation : relation schema candidate) :
    AcceptedWithin table limit hops schema candidate := by
  induction hSize : sizeOf schema using Nat.strong_induction_on generalizing schema with
  | _ size ih =>
      subst hSize
      rw [acceptedWithin_iff_demands]
      refine (hClauses schema hRelation).mono (fun inner hSmaller hInner => ?_)
        (fun _ _ _ hPart => hPart) (fun _ _ _ hTarget => hTarget)
      exact ih _ hSmaller hInner rfl

/-- Acceptance at a place depends on the references only through what is asked of their targets. -/
theorem AcceptedWithin.of_targets {hops hops' : Nat} {candidate : Option Json}
    (hTargets : ∀ name target, table.find? name = some target →
      TargetsWithin table limit hops target candidate → TargetsWithin table limit hops' target candidate)
    {schema : Schema} (hAccepted : AcceptedWithin table limit hops schema candidate) :
    AcceptedWithin table limit hops' schema candidate := by
  refine AcceptedWithin.of_demands (fun schema hSchema => ?_) hAccepted
  rw [acceptedWithin_iff_demands] at hSchema
  exact hSchema.mono (fun _ _ hInner => hInner) (fun _ _ _ hPart => hPart) hTargets

/-- Following one more reference accepts no more. -/
theorem AcceptedWithin.of_succ {hops : Nat} {schema : Schema} {candidate : Option Json}
    (hAccepted : AcceptedWithin table limit (hops + 1) schema candidate) :
    AcceptedWithin table limit hops schema candidate := by
  induction hops generalizing schema with
  | zero =>
      apply hAccepted.of_targets
      intro _ _ _ _
      trivial
  | succ hops ih =>
      apply hAccepted.of_targets
      intro _ _ _ hTarget
      exact ih hTarget

variable (table limit)

/-- Following one more reference after this many refuses no further target of the table. -/
def SettledAt (candidate : Option Json) (hops : Nat) : Prop :=
  ∀ name target, table.find? name = some target →
    AcceptedWithin table limit hops target candidate → AcceptedWithin table limit (hops + 1) target candidate

variable {table limit}

/-- Once nothing more is refused, nothing more is refused one reference later. -/
theorem SettledAt.succ {candidate : Option Json} {hops : Nat} (hSettled : SettledAt table limit candidate hops) :
    SettledAt table limit candidate (hops + 1) := by
  intro name target _ hAccepted
  apply hAccepted.of_targets
  intro name target hFind hTarget
  exact hSettled name target hFind hTarget

theorem SettledAt.of_le {candidate : Option Json} {hops hops' : Nat} (hLe : hops ≤ hops')
    (hSettled : SettledAt table limit candidate hops) : SettledAt table limit candidate hops' := by
  induction hLe with
  | refl => exact hSettled
  | step _ ih => exact ih.succ

open Classical in
noncomputable def acceptedNames (table : SchemaTable) (limit : Nat) (candidate : Option Json) (hops : Nat) :
    Finset String :=
  table.names.toFinset.filter fun name =>
    ∀ target, table.find? name = some target → AcceptedWithin table limit hops target candidate

/-- As long as nothing is settled, every further reference loses a name. -/
theorem card_acceptedNames_lt {candidate : Option Json} {hops : Nat}
    (hUnsettled : ¬ SettledAt table limit candidate hops) :
    (acceptedNames table limit candidate (hops + 1)).card < (acceptedNames table limit candidate hops).card := by
  simp only [SettledAt, not_forall] at hUnsettled
  obtain ⟨name, target, hFind, hAccepted, hRefused⟩ := hUnsettled
  refine Finset.card_lt_card (Finset.ssubset_iff_of_subset ?_ |>.mpr ⟨name, ?_, ?_⟩)
  · intro other hOther
    simp only [acceptedNames, Finset.mem_filter] at hOther ⊢
    exact ⟨hOther.1, fun target hFind => (hOther.2 target hFind).of_succ⟩
  · have hName : name ∈ table.names :=
      (Entries.find?_isSome_iff name table.entries).mp (Option.isSome_iff_exists.mpr ⟨target, hFind⟩)
    simp only [acceptedNames, Finset.mem_filter, List.mem_toFinset]
    refine ⟨hName, fun other hOther => ?_⟩
    rwa [Option.some.inj (hOther.symm.trans hFind)]
  · simp only [acceptedNames, Finset.mem_filter, not_and]
    exact fun _ hAll => hRefused (hAll target hFind)

/-- No more names are accepted than the table has, so they cannot get fewer for ever. -/
theorem card_acceptedNames_le (candidate : Option Json) (hops : Nat) :
    (acceptedNames table limit candidate hops).card ≤ table.size := by
  calc (acceptedNames table limit candidate hops).card
      ≤ table.names.toFinset.card := Finset.card_le_card (by simp [acceptedNames])
    _ ≤ table.names.length := List.toFinset_card_le _
    _ = table.size := by simp [OrderedMap.names, Entries.names, OrderedMap.size]

/-- As many references as there are names settle acceptance at every place. -/
theorem settledAt_size (candidate : Option Json) : SettledAt table limit candidate table.size := by
  by_contra hUnsettled
  have hNever (hops : Nat) (hLe : hops ≤ table.size) : ¬ SettledAt table limit candidate hops :=
    fun hSettled => hUnsettled (hSettled.of_le hLe)
  have hLost (hops : Nat) (hLe : hops ≤ table.size + 1) :
      (acceptedNames table limit candidate hops).card + hops ≤ table.size := by
    induction hops with
    | zero => exact card_acceptedNames_le candidate 0
    | succ hops ih =>
        have hBefore := ih (by omega)
        have hStep := card_acceptedNames_lt (hNever hops (by omega))
        omega
  have hImpossible := hLost (table.size + 1) (Nat.le_refl _)
  omega

def Accepts (table : SchemaTable) : Acceptance :=
  fun schema candidate => check table schema candidate = []

/-- The checker follows one reference more than the table has names. -/
theorem accepts_iff_acceptedWithin (schema : Schema) (candidate : Option Json) :
    Accepts table schema candidate ↔
      AcceptedWithin table table.size (table.size + 1) schema candidate := by
  rw [Accepts, check, checkerOf_eq_placeChecker, AcceptedWithin]

/-- The checker satisfies the clauses of all schemas: no trace of the limit on references is left. -/
theorem accepts_iff_demands (schema : Schema) (candidate : Option Json) :
    Accepts table schema candidate ↔
      Demands table (Accepts table) (Accepts table) (Accepts table) schema candidate := by
  have hTargets (target : Schema) {name : String} (hFind : table.find? name = some target) :
      TargetsWithin table table.size (table.size + 1) target candidate ↔
        AcceptedWithin table table.size (table.size + 1) target candidate :=
    ⟨settledAt_size candidate name target hFind, AcceptedWithin.of_succ⟩
  rw [accepts_iff_acceptedWithin, acceptedWithin_iff_demands]
  constructor
  · refine Demands.mono (fun inner _ hInner => ?_) (fun inner part _ hPart => ?_)
      (fun name target hFind hTarget => ?_)
    · exact (accepts_iff_acceptedWithin inner candidate).mpr hInner
    · exact (accepts_iff_acceptedWithin inner part).mpr hPart
    · exact (accepts_iff_acceptedWithin target candidate).mpr ((hTargets target hFind).mp hTarget)
  · refine Demands.mono (fun inner _ hInner => ?_) (fun inner part _ hPart => ?_)
      (fun name target hFind hTarget => ?_)
    · exact (accepts_iff_acceptedWithin inner candidate).mp hInner
    · exact (accepts_iff_acceptedWithin inner part).mp hPart
    · exact (hTargets target hFind).mpr ((accepts_iff_acceptedWithin target candidate).mp hTarget)

theorem accepts_optional (inner : Schema) (candidate : Option Json) :
    Accepts table (.optional inner) candidate ↔ candidate = none ∨ Accepts table inner candidate := by
  rw [accepts_iff_demands]
  exact Iff.rfl

/-- Accepting absence twice is accepting it once. -/
theorem accepts_orAbsent (schema : Schema) (candidate : Option Json) :
    Accepts table schema.orAbsent candidate ↔ candidate = none ∨ Accepts table schema candidate := by
  cases schema with
  | optional inner => simp [Schema.orAbsent, accepts_optional]
  | _ => rw [Schema.orAbsent, accepts_optional]; simp

theorem accepts_number (candidate : Option Json) :
    Accepts table .number candidate ↔ ∃ value, candidate = some (.number value) := by
  rw [accepts_iff_demands]
  exact Iff.rfl

theorem accepts_text (candidate : Option Json) :
    Accepts table (.text none) candidate ↔ ∃ value, candidate = some (.string value) := by
  rw [accepts_iff_demands]
  exact Iff.rfl

theorem accepts_requiredText (message : String) (candidate : Option Json) :
    Accepts table (.text (some message)) candidate ↔
      ∃ value, candidate = some (.string value) ∧ value ≠ "" := by
  rw [accepts_iff_demands]
  exact Iff.rfl

/-- A closed object with distinct fields accepts the objects that have no further members and whose
members, or their absence, the fields accept. -/
theorem accepts_closedObject {fields : Entries Schema} (hNodup : fields.names.Nodup) (document : Json) :
    Accepts table (.object fields true) (some document) ↔
      ∃ members, document = .object members ∧
        (∀ name schema, fields.find? name = some schema →
          Accepts table schema (Entries.find? name members)) ∧
        ∀ name ∈ Entries.names members, name ∈ fields.names := by
  rw [accepts_iff_demands]
  constructor
  · rintro ⟨members, hDocument, hFields, hKeys⟩
    refine ⟨members, Option.some.inj hDocument, fun name schema hFind => ?_, hKeys rfl⟩
    exact hFields (name, schema) (Entries.mem_of_find? hFind)
  · rintro ⟨members, rfl, hFields, hKeys⟩
    refine ⟨members, rfl, fun field hMem => ?_, fun _ => hKeys⟩
    exact hFields field.1 field.2 ((Entries.mem_iff_find? hNodup field.1 field.2).mp hMem)

/-- A relation each of whose pairs satisfies its clause lies inside the checker's, however many references
are followed. In particular a cycle of references that reaches no part of the document is accepted. -/
theorem AcceptedWithin.of_relation {relation : Acceptance}
    (hClauses : ∀ schema candidate, relation schema candidate →
      Demands table relation relation relation schema candidate)
    (candidate : Option Json) (hops : Nat) {schema : Schema} (hRelation : relation schema candidate) :
    AcceptedWithin table limit hops schema candidate := by
  induction hSize : candidateSize candidate using Nat.strong_induction_on
      generalizing candidate hops schema with
  | _ size ih =>
      subst hSize
      induction hops generalizing schema with
      | zero =>
          refine AcceptedWithin.of_demands (fun schema hSchema => ?_) hRelation
          refine (hClauses schema candidate hSchema).mono (fun _ _ hInner => hInner)
            (fun inner part hSmaller hPart => ?_) (fun _ _ _ _ => trivial)
          exact ih _ hSmaller part (limit + 1) hPart rfl
      | succ hops ihHops =>
          refine AcceptedWithin.of_demands (fun schema hSchema => ?_) hRelation
          refine (hClauses schema candidate hSchema).mono (fun _ _ hInner => hInner)
            (fun inner part hSmaller hPart => ?_) (fun _ _ _ hTarget => ihHops hTarget)
          exact ih _ hSmaller part (limit + 1) hPart rfl

/-- The relation is the one its clauses define: a pair belongs to it exactly when the clause of its schema
holds, with the relation itself for every schema the clause refers to. -/
def SatisfiesClauses (table : SchemaTable) (relation : Acceptance) : Prop :=
  ∀ schema candidate, relation schema candidate ↔
    Demands table relation relation relation schema candidate

/-- Checking is sound and complete: the pairs without a violation form the greatest of all relations that
satisfy the clauses. Chains of references are bounded in the checker and unbounded in the clauses. -/
theorem check_isGreatest_satisfiesClauses (table : SchemaTable) :
    IsGreatest {relation : Acceptance | SatisfiesClauses table relation}
      (fun schema candidate => check table schema candidate = []) := by
  constructor
  · exact fun schema candidate => accepts_iff_demands schema candidate
  · intro relation hRelation schema candidate hHolds
    apply (accepts_iff_acceptedWithin schema candidate).mpr
    exact AcceptedWithin.of_relation (fun schema candidate => (hRelation schema candidate).mp)
      candidate (table.size + 1) hHolds

end SchemaForge
