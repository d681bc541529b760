import SchemaForge.Proofs.ReportedViolations

/-! Checking as a walk over a document. A walk carries the path to the part that it looks at, the violations recorded
so far, and the number of references followed since it came to that part. It goes into a part with the name of the part
at the end of the path and no reference followed, and takes both back on the way out; alternatives are tried on a walk
of their own. A walk records what the checker reports, in the same order, and ends where it began. -/
namespace SchemaForge

structure Walk where
  path : Path
  recorded : List Violation
  hops : Nat

namespace Walk

def record (walk : Walk) (violations : List Violation) : Walk :=
  { walk with recorded := walk.recorded ++ violations }

/-- A walk of its own to try a schema at the same place. -/
def aside (walk : Walk) : Walk :=
  { path := [], recorded := [], hops := walk.hops }

/-- Goes into the part with a name, visits it and comes back. -/
def within (name : String) (visitPart : Walk → Walk) (walk : Walk) : Walk :=
  let inside := visitPart { walk with path := walk.path ++ [name], hops := 0 }
  { inside with path := inside.path.dropLast, hops := walk.hops }

/-- Goes into the elements of an array one after the other. Their schemas are given by their indices. -/
def eachElement (elements : List Json) (schemaAt : Nat → Option Schema)
    (visitElement : (element : Json) → element ∈ elements → Schema → Walk → Walk) (walk : Walk) : Walk :=
  elements.zipIdx.attach.foldl
    (fun walk item => (schemaAt item.1.2).elim walk fun schema =>
      walk.within (toString item.1.2) (visitElement item.1.1 (List.fst_mem_of_mem_zipIdx item.2) schema))
    walk

/-- Checks a candidate on a walk. -/
def visit (table : SchemaTable) (schema : Schema) (candidate : Option Json) (walk : Walk) : Walk :=
  match schema, candidate with
  | .optional inner, candidate => if candidate.isSome then visit table inner candidate walk else walk
  | .union options message, candidate =>
      if candidate.isNone then walk.record (missingAt walk.path)
      else if options.attach.any fun option => (visit table option.1 candidate walk.aside).recorded.isEmpty then walk
      else walk.record (violationAt walk.path message .noAlternative)
  | .array element, some (.array elements) =>
      walk.eachElement elements (fun _ => some element) fun document _ schema inside =>
        visit table schema (some document) inside
  | .tuple items rest, some (.array elements) =>
      if elements.length < items.length then
        walk.record (violationAt walk.path
          ("Array must contain at least " ++ toString items.length ++ " element(s)") .tooSmall)
      else if rest.isNone && decide (items.length < elements.length) then
        walk.record (violationAt walk.path
          ("Array must contain at most " ++ toString items.length ++ " element(s)") .tooBig)
      else
        walk.eachElement elements (fun index => items[index]?.or rest) fun document _ schema inside =>
          visit table schema (some document) inside
  | .object fields strict, some (.object members) =>
      let after := fields.foldl
        (fun walk field =>
          walk.within field.1 fun inside => visit table field.2 (Entries.find? field.1 members) inside)
        walk
      if strict then after.record (unknownKeysAt fields members after.path) else after
  | .reference name, candidate =>
      match table.find? name with
      | none => walk
      | some target =>
          if table.size < walk.hops then walk
          else
            let after := visit table target candidate { walk with hops := walk.hops + 1 }
            { after with hops := after.hops - 1 }
  | schema, candidate =>
      walk.record
        (violationsAt (fun _ _ => []) (fun _ _ => []) (siteOf (fun _ _ _ => []) candidate) walk.path schema)
termination_by (candidateSize candidate, table.size + 1 - walk.hops, sizeOf schema)
decreasing_by
  · exact .right _ (.right _ (by simp))
  · refine .right _ (.right _ ?_)
    have hSize := List.sizeOf_lt_of_mem option.2
    simp only [Schema.union.sizeOf_spec]
    omega
  · exact .left _ _ (candidateSize_element_lt ‹_›)
  · exact .left _ _ (candidateSize_element_lt ‹_›)
  · exact .left _ _ (candidateSize_member_lt field.1 members)
  · exact .right _ (.left _ _ (by omega))

/-- The violations are recorded, and nothing else has changed. -/
theorem within_record {name : String} {visitPart : Walk → Walk} {walk : Walk} {violations : List Violation}
    (hVisit : ∀ inside : Walk, inside.path = walk.path ++ [name] → inside.hops = 0 →
      visitPart inside = inside.record violations) :
    walk.within name visitPart = walk.record violations := by
  rw [within, hVisit _ rfl rfl]
  simp [record]

@[simp]
theorem record_nil (walk : Walk) : walk.record [] = walk := by
  simp [record]

/-- Violations are recorded in the order in which they are found. -/
@[simp]
theorem record_record (walk : Walk) (first second : List Violation) :
    (walk.record first).record second = walk.record (first ++ second) := by
  simp [record]

/-- A loop whose steps each record something records all of it in order. -/
theorem foldl_record {β : Type} {items : List β} {step : Walk → β → Walk} {found : β → List Violation} {walk : Walk}
    (hStep : ∀ item ∈ items, ∀ earlier, step (walk.record earlier) item = walk.record (earlier ++ found item)) :
    items.foldl step walk = walk.record (items.flatMap found) := by
  have hAll (earlier : List Violation) :
      items.foldl step (walk.record earlier) = walk.record (earlier ++ items.flatMap found) := by
    induction items generalizing earlier with
    | nil => simp
    | cons item rest ih =>
        obtain ⟨hItem, hRest⟩ := List.forall_mem_cons.mp hStep
        rw [List.foldl_cons, hItem, ih hRest, List.flatMap_cons, List.append_assoc]
  simpa using hAll []

section Place

variable {table : SchemaTable} {follow : Path → String → List Violation} {missing : Checker}
  {checkers : Option Json → Checker} {candidate : Option Json} {hops : Nat}

/-- What the parts of a candidate add to a walk is what their checkers report. -/
def PartsRecorded (table : SchemaTable) (checkers : Option Json → Checker) (candidate : Option Json) : Prop :=
  ∀ part, candidateSize part < candidateSize candidate → ∀ schema (walk : Walk), walk.hops = 0 →
    visit table schema part walk = walk.record (checkers part walk.path schema)

/-- A visit to a part adds what its checker reports, and the path is as before. -/
theorem PartsRecorded.within (hParts : PartsRecorded table checkers candidate) {part : Option Json}
    (hSmaller : candidateSize part < candidateSize candidate) (name : String) (schema : Schema) (walk : Walk) :
    walk.within name (fun inside => visit table schema part inside) =
      walk.record (checkers part (walk.path ++ [name]) schema) := by
  refine within_record fun inside hPath hHops => ?_
  rw [hParts part hSmaller schema inside hHops, hPath]

/-- The induction is over the elements, with the index of the first one as it moves on. -/
theorem PartsRecorded.elements {elements : List Json} (hParts : PartsRecorded table checkers (some (.array elements)))
    (schemaAt : Nat → Option Schema) (walk : Walk) :
    walk.eachElement elements schemaAt (fun document _ schema inside => visit table schema (some document) inside) =
      walk.record (elementViolations walk.path schemaAt (elements.map fun document => checkers (some document))) := by
  have hFound : elements.zipIdx.attach.flatMap (fun item => (schemaAt item.1.2).elim []
        (checkers (some item.1.1) (walk.path ++ [toString item.1.2]))) =
      elementViolations walk.path schemaAt (elements.map fun document => checkers (some document)) := by
    rw [elementViolations_eq_flatMap]
    conv_rhs => rw [← List.attach_map_subtype_val elements.zipIdx, List.flatMap_map]
  rw [eachElement, ← hFound]
  refine foldl_record fun item _ earlier => ?_
  cases schemaAt item.1.2 with
  | none => simp
  | some schema =>
      rw [Option.elim_some, Option.elim_some, hParts.within, record_record]
      · rfl
      · exact candidateSize_element_lt (List.fst_mem_of_mem_zipIdx item.2)

/-- The induction is over the fields, a missing one included. -/
theorem PartsRecorded.fields {members : Entries Json} (hParts : PartsRecorded table checkers (some (.object members)))
    (fields : Entries Schema) (walk : Walk) :
    fields.foldl (fun walk field =>
        walk.within field.1 fun inside => visit table field.2 (Entries.find? field.1 members) inside) walk =
      walk.record (fields.flatMap fun field =>
        checkers (members.find? field.1) (walk.path ++ [field.1]) field.2) := by
  refine foldl_record fun field _ earlier => ?_
  rw [hParts.within (candidateSize_member_lt field.1 members), record_record]
  rfl

/-- An array is visited element by element, which comes to what the checker reports at once. -/
theorem visit_array (hParts : PartsRecorded table checkers candidate) (element : Schema) (walk : Walk) :
    visit table (.array element) candidate walk =
      walk.record (violationsAt follow missing (siteOf checkers candidate) walk.path (.array element)) := by
  rcases candidate with _ | document
  · simp only [visit]; rfl
  cases document with
  | array elements =>
      rw [visit, hParts.elements]
      rfl
  | _ => simp only [visit]; rfl

/-- The length is checked first, and the elements are visited only if it is right. -/
theorem visit_tuple (hParts : PartsRecorded table checkers candidate) (items : List Schema) (rest : Option Schema)
    (walk : Walk) :
    visit table (.tuple items rest) candidate walk =
      walk.record (violationsAt follow missing (siteOf checkers candidate) walk.path (.tuple items rest)) := by
  rcases candidate with _ | document
  · simp only [visit]; rfl
  cases document with
  | array elements =>
      rw [visit, hParts.elements]
      simp only [violationsAt, siteOf, List.length_map]
      split
      · rfl
      split <;> rfl
  | _ => simp only [visit]; rfl

/-- The fields are visited in their order, and unknown keys are recorded behind them. -/
theorem visit_object (hMissing : candidate ≠ none → missing = checkers none)
    (hParts : PartsRecorded table checkers candidate) (fields : Entries Schema) (strict : Bool) (walk : Walk) :
    visit table (.object fields strict) candidate walk =
      walk.record (violationsAt follow missing (siteOf checkers candidate) walk.path (.object fields strict)) := by
  rcases candidate with _ | document
  · simp only [visit]; rfl
  cases document with
  | object members =>
      rw [visit, hParts.fields]
      simp only [violationsAt, siteOf, fieldViolations_eq_flatMap (hMissing (by simp))]
      cases strict with
      | false => simp
      | true =>
        simp only [if_true, record_record]
        rw [unknownKeysAt, unknownKeysAt, Entries.names_mapValues (fun document => checkers (some document))]
        rfl
  | _ => simp only [visit]; rfl

/-- At one place a walk records what the checker reports there, if it does so for the references followed and for the
parts. -/
theorem visit_eq_record
    (hFollow : ∀ (name : String) (walk : Walk), walk.hops = hops →
      visit table (.reference name) candidate walk = walk.record (follow walk.path name))
    (hMissing : candidate ≠ none → missing = checkers none) (hParts : PartsRecorded table checkers candidate)
    (schema : Schema) (walk : Walk) (hHops : walk.hops = hops) :
    visit table schema candidate walk =
      walk.record (violationsAt follow missing (siteOf checkers candidate) walk.path schema) := by
  induction schema using Schema.induction_parts generalizing walk with
  | array element => exact visit_array hParts element walk
  | tuple items rest => exact visit_tuple hParts items rest walk
  | object fields strict => exact visit_object hMissing hParts fields strict walk
  | reference name => rw [hFollow name walk hHops, violationsAt]
  | optional inner ih =>
      rw [visit, violationsAt]
      cases candidate with
      | none => simp [siteOf, Site.isAbsent]
      | some document => simpa using ih walk hHops
  | union options message ih =>
      have hOption {option : Schema} (hMem : option ∈ options) :
          (visit table option candidate walk.aside).recorded =
            violationsAt follow missing (siteOf checkers candidate) [] option := by
        rw [ih option hMem walk.aside hHops]
        rfl
      have hAny : (options.attach.any fun option => (visit table option.1 candidate walk.aside).recorded.isEmpty) =
          acceptedByAny follow missing (siteOf checkers candidate) options := by
        rw [Bool.eq_iff_iff, acceptedByAny_iff, List.any_eq_true]
        constructor
        · rintro ⟨⟨option, hMem⟩, -, hEmpty⟩
          exact ⟨option, hMem, by rwa [hOption hMem, List.isEmpty_iff] at hEmpty⟩
        · rintro ⟨option, hMem, hNil⟩
          exact ⟨⟨option, hMem⟩, List.mem_attach _ _, by rw [hOption hMem, hNil, List.isEmpty_nil]⟩
      rw [visit, violationsAt, hAny]
      cases candidate with
      | none => rfl
      | some document =>
          simp only [Option.isNone_some, isAbsent_siteOf_some, Bool.false_eq_true, if_false]
          split
          · rw [record_nil]
          · rfl
  | literal value =>
      simp only [visit]
      rcases candidate with _ | document
      · rfl
      · cases value <;> cases document <;> rfl
  | text required =>
      simp only [visit]
      rcases candidate with _ | document
      · cases required <;> rfl
      · cases required <;> cases document <;> rfl
  | _ =>
      simp only [visit]
      rcases candidate with _ | document
      · rfl
      · cases document <;> rfl

end Place

/-- One reference too many is passed over. -/
theorem visit_reference_of_size_lt {table : SchemaTable} {walk : Walk} (hMany : table.size < walk.hops) (name : String)
    (candidate : Option Json) : visit table (.reference name) candidate walk = walk := by
  rw [visit]
  split
  · rfl
  · rw [if_pos hMany]

/-- Any other reference counts while its target is visited. -/
theorem visit_reference_of_le_size {table : SchemaTable} {walk : Walk} (hFew : walk.hops ≤ table.size) (name : String)
    {candidate : Option Json} {found : Schema → List Violation}
    (hTarget : ∀ target, table.find? name = some target →
      visit table target candidate { walk with hops := walk.hops + 1 } =
        ({ walk with hops := walk.hops + 1 } : Walk).record (found target)) :
    visit table (.reference name) candidate walk = walk.record ((table.find? name).elim [] found) := by
  rw [visit]
  split
  next hFind => rw [hFind, Option.elim_none, record_nil]
  next target hFind =>
    rw [hFind, Option.elim_some, if_neg (Nat.not_lt.mpr hFew), hTarget target hFind]
    rfl

/-- Every walk records what the checker reports that follows as many references as the walk has left. The outer
induction is on the candidate, the inner one on the references left at its place. -/
theorem visit_eq_record_placeChecker (table : SchemaTable) (schema : Schema) (candidate : Option Json) (walk : Walk) :
    visit table schema candidate walk =
      walk.record (placeChecker table table.size (table.size + 1 - walk.hops) candidate walk.path schema) := by
  induction hSize : candidateSize candidate using Nat.strong_induction_on generalizing candidate schema walk with
  | _ size ih =>
      subst hSize
      have hParts : PartsRecorded table (checkerOf table table.size) candidate := by
        intro part hSmaller schema walk hHops
        rw [checkerOf_eq_placeChecker, ih _ hSmaller schema part walk rfl, hHops]
        rfl
      induction hLeft : table.size + 1 - walk.hops generalizing schema walk with
      | zero =>
          rw [placeChecker_zero]
          refine visit_eq_record (fun name walk' hSame => ?_) (missingFor_of_ne_none table _) hParts schema walk rfl
          rw [visit_reference_of_size_lt (by omega), record_nil]
      | succ left ihLeft =>
          rw [placeChecker_succ]
          refine visit_eq_record (fun name walk' hSame => ?_) (missingFor_of_ne_none table _) hParts schema walk rfl
          refine visit_reference_of_le_size (by omega) name fun target _ => ?_
          exact ihLeft target { walk' with hops := walk'.hops + 1 } (by simp only; omega)

end Walk

end SchemaForge
