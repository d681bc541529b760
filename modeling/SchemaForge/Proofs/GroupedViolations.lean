import Mathlib.Data.List.Nodup
import SchemaForge.DataCheck
import SchemaForge.Proofs.OrderedMap

/-! Violations in groups. The messages of each field form one group, and the groups stand in the order in which their
fields first occur. Keeping an index of the places of the groups, looking for the group of a field from the front, and
collecting the messages of one field after the other all lead to the same groups. -/
namespace SchemaForge.Violation

def messagesOf (field : String) (violations : List Violation) : List String :=
  (violations.filter fun violation => violation.field = field).map message

/-- The groups are those of the violations: one for each field, in the order in which the fields first occur, with the
messages of the field in their order. Together they hold every message once, under its own field. -/
structure IsGrouping (violations : List Violation) (groups : Entries (List String)) : Prop where
  distinct : groups.names.Nodup
  fields : ∀ field, field ∈ groups.names ↔ ∃ violation ∈ violations, violation.field = field
  ordered : groups.names.Pairwise fun first second =>
    (violations.map field).idxOf first < (violations.map field).idxOf second
  messages : ∀ group ∈ groups, group.2 = messagesOf group.1 violations
  complete : (groups.flatMap fun group => group.2.map fun message => (group.1, message)).Perm
    (violations.map fun violation => (violation.field, violation.message))

section Groups

variable {label : String} {groups : Entries (List String)}

/-- A new label opens a group at the end. -/
theorem addToGroup_of_notMem (hLabel : label ∉ groups.names) (message : String) :
    addToGroup label message groups = groups ++ [(label, [message])] := by
  induction groups with
  | nil => rfl
  | cons group rest ih =>
      rw [Entries.names, List.map_cons, List.mem_cons, not_or] at hLabel
      rw [addToGroup, if_neg (Ne.symm hLabel.1), ih hLabel.2, List.cons_append]

/-- A message goes to the end of the group that has its label. -/
theorem addToGroup_of_getElem? {place : Nat} (hDistinct : groups.names.Nodup)
    (hPlace : groups.names[place]? = some label) (message : String) :
    addToGroup label message groups = groups.modify place fun group => (group.1, group.2 ++ [message]) := by
  induction groups generalizing place with
  | nil => cases hPlace
  | cons group rest ih =>
      obtain ⟨other, messages⟩ := group
      rw [Entries.names, List.map_cons, List.nodup_cons] at hDistinct
      cases place with
      | zero =>
          obtain rfl : other = label := Option.some.inj hPlace
          rw [addToGroup, if_pos rfl]
          rfl
      | succ place =>
          have hRest : (Entries.names rest)[place]? = some label := hPlace
          have hOther : other ≠ label := fun hSame => hDistinct.1 (hSame ▸ List.mem_of_getElem? hRest)
          rw [addToGroup, if_neg hOther, ih hDistinct.2 hRest]
          rfl

theorem names_addToGroup_of_mem (hLabel : label ∈ groups.names) (message : String) :
    Entries.names (addToGroup label message groups) = groups.names := by
  induction groups with
  | nil => cases hLabel
  | cons group rest ih =>
      obtain ⟨other, messages⟩ := group
      by_cases hOther : other = label
      · rw [addToGroup, if_pos hOther]
        rfl
      · have hRest : label ∈ Entries.names rest := (List.mem_cons.mp hLabel).resolve_left (Ne.symm hOther)
        rw [addToGroup, if_neg hOther]
        exact congrArg (other :: ·) (ih hRest)

/-- The message is added to what the groups hold. -/
theorem flatMap_addToGroup_perm (label message : String) (groups : Entries (List String)) :
    ((addToGroup label message groups).flatMap fun group => group.2.map fun message => (group.1, message)).Perm
      ((groups.flatMap fun group => group.2.map fun message => (group.1, message)) ++ [(label, message)]) := by
  induction groups with
  | nil => exact .refl _
  | cons group rest ih =>
      obtain ⟨other, messages⟩ := group
      by_cases hOther : other = label
      · subst hOther
        rw [addToGroup, if_pos rfl, List.flatMap_cons, List.flatMap_cons, List.map_append, List.append_assoc,
          List.append_assoc]
        exact List.perm_append_comm.append_left _
      · rw [addToGroup, if_neg hOther, List.flatMap_cons, List.flatMap_cons, List.append_assoc]
        exact ih.append_left _

end Groups

namespace Grouper

/-- The places are those at which the groups of the fields stand. -/
def Indexed (grouper : Grouper) : Prop :=
  ∀ field place, grouper.places.find? field = some place ↔ grouper.groups.names[place]? = some field

variable {grouper : Grouper}

/-- No field has two groups, since it has one place. -/
theorem Indexed.nodup_names (hIndexed : grouper.Indexed) : grouper.groups.names.Nodup := by
  rw [List.nodup_iff_getElem?_ne_getElem?]
  intro first second hBefore hLength hSame
  obtain ⟨field, hField⟩ : ∃ field, grouper.groups.names[second]? = some field :=
    ⟨_, List.getElem?_eq_getElem hLength⟩
  have hFirst := (hIndexed field first).mpr (hSame.trans hField)
  have hSecond := (hIndexed field second).mpr hField
  exact Nat.ne_of_lt hBefore (Option.some.inj (hFirst.symm.trans hSecond))

theorem getElem?_concat_eq_some_iff {names : List String} {last name : String} {place : Nat} :
    (names ++ [last])[place]? = some name ↔ names[place]? = some name ∨ place = names.length ∧ last = name := by
  rw [List.getElem?_append]
  split
  · have hOther : place ≠ names.length := by omega
    simp [hOther]
  · have hNone : names[place]? = none := List.getElem?_eq_none (by omega)
    rw [hNone, List.getElem?_singleton]
    split
    · have hLast : place = names.length := by omega
      simp [hLast]
    · have hOther : place ≠ names.length := by omega
      simp [hOther]

/-- Each violation goes where a search from the front puts it, and the index stays right. -/
theorem Indexed.add (hIndexed : grouper.Indexed) (violation : Violation) :
    (grouper.add violation).groups = addToGroup violation.field violation.message grouper.groups ∧
      (grouper.add violation).Indexed := by
  unfold Grouper.add
  cases hPlace : grouper.places.find? violation.field with
  | some place =>
      have hGroup := (hIndexed violation.field place).mp hPlace
      have hAdded := addToGroup_of_getElem? hIndexed.nodup_names hGroup violation.message
      refine ⟨hAdded.symm, fun field other => ?_⟩
      have hNames := names_addToGroup_of_mem (List.mem_of_getElem? hGroup) violation.message
      rw [hAdded] at hNames
      rw [hNames]
      exact hIndexed field other
  | none =>
      have hNew : violation.field ∉ grouper.groups.names := by
        intro hMem
        obtain ⟨place, hGroup⟩ := List.getElem?_of_mem hMem
        rw [(hIndexed _ place).mpr hGroup] at hPlace
        cases hPlace
      refine ⟨(addToGroup_of_notMem hNew violation.message).symm, fun field place => ?_⟩
      have hFind : (grouper.places.put violation.field grouper.groups.length).find? field =
          if violation.field = field then some grouper.groups.length else grouper.places.find? field :=
        Entries.find?_put _ _ _ _
      have hNames : Entries.names (grouper.groups ++ [(violation.field, [violation.message])]) =
          grouper.groups.names ++ [violation.field] := by
        simp [Entries.names]
      have hLength : grouper.groups.names.length = grouper.groups.length := List.length_map _
      rw [hFind, hNames, getElem?_concat_eq_some_iff, hLength, ← hIndexed field place]
      by_cases hField : violation.field = field
      · rw [if_pos hField, ← hField, hPlace]
        simp [eq_comm]
      · simp [hField]

/-- Grouping with an index is grouping by search. -/
theorem groups_foldl_add (hIndexed : grouper.Indexed) (violations : List Violation) :
    (violations.foldl Grouper.add grouper).groups =
      violations.foldl (fun groups violation => addToGroup violation.field violation.message groups)
        grouper.groups := by
  induction violations generalizing grouper with
  | nil => rfl
  | cons violation rest ih =>
      obtain ⟨hGroups, hStill⟩ := hIndexed.add violation
      rw [List.foldl_cons, List.foldl_cons, ih hStill, hGroups]

theorem indexed_empty : empty.Indexed := by
  intro field place
  simp [empty, OrderedMap.empty, OrderedMap.find?, Entries.find?, Entries.names]

end Grouper

/-- The groups of an index are those of a search from the front. -/
theorem byField_eq_foldl (violations : List Violation) :
    byField violations =
      violations.foldl (fun groups violation => addToGroup violation.field violation.message groups) [] :=
  Grouper.groups_foldl_add Grouper.indexed_empty violations

/-- Each field is followed by those that occur later for the first time. -/
theorem pairwise_idxOf_eraseDups (fields : List String) :
    fields.eraseDups.Pairwise fun first second => fields.idxOf first < fields.idxOf second := by
  induction fields using List.reverseRecOn with
  | nil => exact .nil
  | append_singleton fields field ih =>
      have hKept : fields.eraseDups.Pairwise fun first second =>
          (fields ++ [field]).idxOf first < (fields ++ [field]).idxOf second := by
        refine ih.imp_of_mem fun {first second} hFirst hSecond hBefore => ?_
        rwa [List.idxOf_append_of_mem (List.mem_eraseDups.mp hFirst),
          List.idxOf_append_of_mem (List.mem_eraseDups.mp hSecond)]
      rw [Entries.eraseDups_concat]
      split
      · exact hKept
      · rename_i hNew
        refine List.pairwise_append.mpr ⟨hKept, List.pairwise_singleton _ _, fun first hFirst second hSecond => ?_⟩
        have hOld := List.mem_eraseDups.mp hFirst
        rw [List.mem_singleton.mp hSecond, List.idxOf_append_of_mem hOld, List.idxOf_append_of_notMem hNew]
        exact Nat.lt_add_right _ (List.idxOf_lt_length_of_mem hOld)

theorem nodup_eraseDups (fields : List String) : fields.eraseDups.Nodup := by
  refine (pairwise_idxOf_eraseDups fields).imp fun {first second} hBefore hSame => ?_
  rw [hSame] at hBefore
  exact Nat.lt_irrefl _ hBefore

/-- A further violation adds its message to those of its field. -/
theorem messagesOf_concat (field : String) (violations : List Violation) (violation : Violation) :
    messagesOf field (violations ++ [violation]) =
      messagesOf field violations ++ if violation.field = field then [violation.message] else [] := by
  by_cases hField : violation.field = field <;> simp [messagesOf, hField]

theorem messagesOf_of_notMem {field : String} {violations : List Violation}
    (hField : field ∉ violations.map Violation.field) : messagesOf field violations = [] := by
  rw [messagesOf, List.map_eq_nil_iff, List.filter_eq_nil_iff]
  intro violation hMem hSame
  exact hField (List.mem_map.mpr ⟨violation, hMem, of_decide_eq_true hSame⟩)

/-- The groups grow by one message for each further violation. -/
theorem byField_concat (violations : List Violation) (violation : Violation) :
    byField (violations ++ [violation]) = addToGroup violation.field violation.message (byField violations) := by
  rw [byField_eq_foldl, byField_eq_foldl, List.foldl_append]
  rfl

/-- A message added to groups that are given by their labels. -/
theorem addToGroup_map {labels : List String} (hDistinct : labels.Nodup) {label : String} (hLabel : label ∈ labels)
    (found : String → List String) (message : String) :
    addToGroup label message (labels.map fun name => (name, found name)) =
      labels.map fun name => (name, found name ++ if label = name then [message] else []) := by
  induction labels with
  | nil => cases hLabel
  | cons first rest ih =>
      rw [List.nodup_cons] at hDistinct
      rw [List.map_cons, List.map_cons, addToGroup]
      by_cases hFirst : first = label
      · have hRest : ∀ name ∈ rest,
            (name, found name) = (name, found name ++ if label = name then [message] else []) := by
          intro name hName
          have hOther : label ≠ name := fun hSame => hDistinct.1 (hFirst ▸ hSame ▸ hName)
          rw [if_neg hOther, List.append_nil]
        rw [if_pos hFirst, if_pos hFirst.symm, List.map_congr_left hRest]
      · have hLater : label ∈ rest := (List.mem_cons.mp hLabel).resolve_left (Ne.symm hFirst)
        rw [if_neg hFirst, if_neg (Ne.symm hFirst), List.append_nil, ih hDistinct.2 hLater]

/-- The groups that arise one violation after the other are those that are collected one field after the other. -/
theorem byField_eq_map (violations : List Violation) :
    byField violations =
      (violations.map field).eraseDups.map fun field => (field, messagesOf field violations) := by
  induction violations using List.reverseRecOn with
  | nil => rfl
  | append_singleton violations violation ih =>
      rw [byField_concat, ih, List.map_append, List.map_singleton, Entries.eraseDups_concat]
      simp only [messagesOf_concat]
      split
      · rename_i hKnown
        exact addToGroup_map (nodup_eraseDups _) (List.mem_eraseDups.mpr hKnown) _ _
      · rename_i hNew
        have hNames : (Entries.names ((violations.map field).eraseDups.map fun field =>
            (field, messagesOf field violations))) = (violations.map field).eraseDups := by
          simp [Entries.names, Function.comp_def]
        have hKept : ∀ name ∈ (violations.map field).eraseDups,
            (name, messagesOf name violations) =
              (name, messagesOf name violations ++ if violation.field = name then [violation.message] else []) := by
          intro name hName
          have hOther : violation.field ≠ name := fun hSame => hNew (hSame ▸ List.mem_eraseDups.mp hName)
          rw [if_neg hOther, List.append_nil]
        rw [addToGroup_of_notMem (by rwa [hNames, List.mem_eraseDups]), List.map_append, List.map_congr_left hKept,
          List.map_singleton, messagesOf_of_notMem hNew, if_pos rfl, List.nil_append]

/-- The groups stand in the order in which the fields first occur. -/
theorem names_byField (violations : List Violation) :
    (Entries.names (byField violations)) = (violations.map field).eraseDups := by
  rw [byField_eq_map]
  simp [Entries.names, Function.comp_def]

/-- No message is lost and none is added. The induction is over the violations. -/
theorem flatMap_byField_perm (violations : List Violation) :
    ((byField violations).flatMap fun group => group.2.map fun message => (group.1, message)).Perm
      (violations.map fun violation => (violation.field, violation.message)) := by
  induction violations using List.reverseRecOn with
  | nil => exact .refl _
  | append_singleton violations violation ih =>
      rw [byField_concat, List.map_append]
      exact (flatMap_addToGroup_perm _ _ _).trans (ih.append_right _)

/-- The facts about groups, put together from the lemmas on names, messages and their number. -/
theorem isGrouping_byField (violations : List Violation) : IsGrouping violations (byField violations) where
  distinct := by
    rw [names_byField]
    exact nodup_eraseDups _
  fields field := by rw [names_byField, List.mem_eraseDups, List.mem_map]
  ordered := by
    rw [names_byField]
    exact pairwise_idxOf_eraseDups _
  messages := by
    rw [byField_eq_map]
    intro group hGroup
    obtain ⟨field, -, rfl⟩ := List.mem_map.mp hGroup
    rfl
  complete := flatMap_byField_perm violations

/-- The violation with the general heading in place of an empty field. -/
def headed (violation : Violation) : Violation :=
  if violation.field = "" then { violation with field := generalLabel } else violation

theorem field_headed (violation : Violation) : violation.headed.field = violation.label := by
  unfold headed label
  split <;> rfl

theorem message_headed (violation : Violation) : violation.headed.message = violation.message := by
  unfold headed
  split <;> rfl

/-- The general heading takes the place of an empty field; apart from that the groups are the same. -/
theorem byLabel_eq_byField (violations : List Violation) : byLabel violations = byField (violations.map headed) := by
  rw [byField_eq_foldl, List.foldl_map, byLabel]
  simp only [field_headed, message_headed]

/-- A field that is called like the general heading shares its group with the empty field. -/
example :
    byLabel [⟨"", "first", .unknownKeys⟩, ⟨"size", "second", .required⟩, ⟨"General", "third", .required⟩] =
      [("General", ["first", "third"]), ("size", ["second"])] := by
  decide

/-- Violations are grouped by field without losing, doubling or moving a message, and in the order in which the fields
first occur. Searching the groups from the front gives the same groups. Grouping by heading is grouping by field once
the general heading has taken the place of the empty field. -/
theorem isGrouping_byField_and_byLabel (violations : List Violation) :
    IsGrouping violations (byField violations) ∧
      violations.foldl (fun groups violation => addToGroup violation.field violation.message groups) [] =
        byField violations ∧
      byLabel violations = byField (violations.map headed) :=
  ⟨isGrouping_byField violations, (byField_eq_foldl violations).symm, byLabel_eq_byField violations⟩

end SchemaForge.Violation
