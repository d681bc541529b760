import Mathlib.Algebra.Ring.Nat
import Mathlib.Data.List.Basic
import Mathlib.Data.List.Induction
import Mathlib.Data.List.Perm.Subperm
import SchemaForge.OrderedMap

/-! Looking up names in lists of named values and in ordered maps. What was put last under a name is what
is found under it, and where no name occurs twice, finding an entry and having it are the same. Putting
entries in two rounds comes to putting the second into the first and then both, places included. -/
namespace SchemaForge

universe u v

namespace Entries

variable {α : Type u} {β : Type v}

theorem has_iff (name : String) (entries : Entries α) : entries.has name = true ↔ name ∈ entries.names :=
  find?_isSome_iff name entries

/-- Nothing is found exactly under the names that do not occur. -/
theorem find?_eq_none_iff (name : String) (entries : Entries α) :
    entries.find? name = none ↔ name ∉ entries.names := by
  rw [← find?_isSome_iff, Bool.not_eq_true, Option.isSome_eq_false_iff, Option.isNone_iff_eq_none]

theorem mem_of_find? {name : String} {entries : Entries α} {value : α}
    (hFind : entries.find? name = some value) : (name, value) ∈ entries := by
  induction entries with
  | nil => simp [find?] at hFind
  | cons entry rest ih =>
      obtain ⟨other, first⟩ := entry
      by_cases hName : other = name
      · simp only [find?, hName, if_true, Option.some.injEq] at hFind
        simp [hName, hFind]
      · simp only [find?, hName, if_false] at hFind
        exact List.mem_cons_of_mem _ (ih hFind)

/-- Without repeated names every entry is the one that is found under its name. -/
theorem mem_iff_find? {entries : Entries α} (hNodup : entries.names.Nodup) (name : String) (value : α) :
    (name, value) ∈ entries ↔ entries.find? name = some value := by
  refine ⟨fun hMem => ?_, mem_of_find?⟩
  induction entries with
  | nil => simp at hMem
  | cons entry rest ih =>
      obtain ⟨other, first⟩ := entry
      simp only [names, List.map_cons, List.nodup_cons] at hNodup
      rcases List.mem_cons.mp hMem with hHead | hTail
      · cases hHead
        simp [find?]
      · have hOther : other ≠ name := by
          rintro rfl
          exact hNodup.1 (List.mem_map_of_mem hTail)
        simp only [find?, hOther, if_false]
        exact ih hNodup.2 hTail

/-- Values may be turned before or after looking them up. -/
theorem find?_mapValues (f : α → β) (name : String) (entries : Entries α) :
    Entries.find? name (entries.map fun entry => (entry.1, f entry.2)) = (entries.find? name).map f := by
  induction entries with
  | nil => rfl
  | cons entry rest ih =>
      by_cases hName : entry.1 = name
      · simp [find?, hName]
      · simpa [find?, hName] using ih

theorem names_mapValues (f : α → β) (entries : Entries α) :
    Entries.names (entries.map fun entry => (entry.1, f entry.2)) = entries.names := by
  simp [names]

/-- What was put last under a name is found, and other names are left alone. -/
theorem find?_put (name other : String) (value : α) (entries : Entries α) :
    (put name value entries).find? other = if name = other then some value else entries.find? other := by
  by_cases hName : name = other
  · rw [if_pos hName, ← hName, find?_put_self]
  · rw [if_neg hName, find?_put_of_ne hName]

/-- After putting several entries a name has the value of the last of them with that name, or its old
value if there is none. -/
theorem find?_putAll (name : String) (further : List (String × α)) (entries : Entries α) :
    (putAll entries further).find? name =
      ((further.filter fun entry => entry.1 = name).getLast?.map Prod.snd).or (entries.find? name) := by
  induction further generalizing entries with
  | nil => rfl
  | cons entry rest ih =>
      have hStep : (putAll entries (entry :: rest)).find? name =
          (putAll (put entry.1 entry.2 entries) rest).find? name := rfl
      rw [hStep, ih, find?_put]
      by_cases hName : entry.1 = name
      · rw [List.filter_cons_of_pos (by simpa using hName), List.getLast?_cons]
        cases (rest.filter fun entry => entry.1 = name).getLast? <;> simp [hName]
      · rw [List.filter_cons_of_neg (by simpa using hName), if_neg hName]

/-- A name that is not among the further entries keeps its value. -/
theorem find?_putAll_of_notMem {name : String} {further : Entries α} (hName : name ∉ further.names)
    (entries : Entries α) : (putAll entries further).find? name = entries.find? name := by
  have hNone : further.filter (fun entry => entry.1 = name) = [] := by
    rw [List.filter_eq_nil_iff]
    intro entry hMem
    simp only [decide_eq_true_eq]
    rintro rfl
    exact hName (List.mem_map_of_mem hMem)
  rw [find?_putAll, hNone]
  rfl

/-- A name that is among the further entries only once gets the value it has there. -/
theorem find?_putAll_of_mem {further : Entries α} (hNodup : further.names.Nodup) {name : String} {value : α}
    (hMem : (name, value) ∈ further) (entries : Entries α) : (putAll entries further).find? name = some value := by
  induction further generalizing entries with
  | nil => cases hMem
  | cons entry rest ih =>
      simp only [names, List.map_cons, List.nodup_cons] at hNodup
      have hStep : putAll entries (entry :: rest) = putAll (put entry.1 entry.2 entries) rest := rfl
      rw [hStep]
      rcases List.mem_cons.mp hMem with rfl | hRest
      · rw [find?_putAll_of_notMem hNodup.1, find?_put_self]
      · exact ih hNodup.2 hRest _

/-- The induction is over the entries that are put, none of which makes a name occur twice. -/
theorem nodup_names_putAll {entries : Entries α} (hNodup : entries.names.Nodup)
    (further : List (String × α)) : (putAll entries further).names.Nodup := by
  induction further generalizing entries with
  | nil => exact hNodup
  | cons entry rest ih => exact ih (nodup_names_put entry.1 entry.2 entries hNodup)

/-- A name at the end is a new one, or it changes nothing. -/
theorem eraseDups_concat (names : List String) (name : String) :
    (names ++ [name]).eraseDups = if name ∈ names then names.eraseDups else names.eraseDups ++ [name] := by
  rw [List.eraseDups_append]
  by_cases hMem : name ∈ names
  · simp [List.removeAll, hMem]
  · simp [List.removeAll, hMem, List.eraseDups_cons]

/-- Putting entries into an empty list leaves each name at the place where it came first. -/
theorem names_ofList (entries : List (String × α)) :
    (ofList entries).names = (entries.map Prod.fst).eraseDups := by
  induction entries using List.reverseRecOn with
  | nil => rfl
  | append_singleton entries entry ih =>
      have hStep : ofList (entries ++ [entry]) = put entry.1 entry.2 (ofList entries) := by
        simp [ofList, putAll]
      rw [hStep, names_put, ih, List.map_append, List.map_singleton, eraseDups_concat]
      simp only [List.mem_eraseDups]

/-- An entry is the one that was put, or it was there before. -/
theorem mem_put {name : String} {value : α} {entries : Entries α} {entry : String × α}
    (hMem : entry ∈ put name value entries) : entry = (name, value) ∨ entry ∈ entries := by
  induction entries with
  | nil => exact Or.inl (by simpa [put] using hMem)
  | cons first rest ih =>
      obtain ⟨other, old⟩ := first
      by_cases hName : other = name
      · rw [put, if_pos hName, hName] at hMem
        rcases List.mem_cons.mp hMem with hHead | hTail
        · exact Or.inl hHead
        · exact Or.inr (List.mem_cons_of_mem _ hTail)
      · rw [put, if_neg hName] at hMem
        rcases List.mem_cons.mp hMem with hHead | hTail
        · exact Or.inr (hHead ▸ List.mem_cons_self)
        · exact (ih hTail).imp_right (List.mem_cons_of_mem _)

/-- Putting entries invents none. -/
theorem mem_putAll {entries : Entries α} {further : List (String × α)} {entry : String × α}
    (hMem : entry ∈ putAll entries further) : entry ∈ entries ∨ entry ∈ further := by
  induction further generalizing entries with
  | nil => exact Or.inl hMem
  | cons first rest ih =>
      rcases ih hMem with hPut | hRest
      · rcases mem_put hPut with hFirst | hOld
        · exact Or.inr (hFirst ▸ List.mem_cons_self)
        · exact Or.inl hOld
      · exact Or.inr (List.mem_cons_of_mem _ hRest)

/-- A new name comes last. -/
theorem put_of_notMem {name : String} {entries : Entries α} (hName : name ∉ entries.names) (value : α) :
    put name value entries = entries ++ [(name, value)] := by
  induction entries with
  | nil => rfl
  | cons entry rest ih =>
      obtain ⟨other, old⟩ := entry
      simp only [names, List.map_cons, List.mem_cons, not_or] at hName
      simp only [put, if_neg (Ne.symm hName.1), List.cons_append]
      rw [ih hName.2]

/-- Putting entries with new and different names appends them. -/
theorem putAll_of_nodup {entries further : Entries α} (hNodup : (entries ++ further).names.Nodup) :
    putAll entries further = entries ++ further := by
  induction further generalizing entries with
  | nil => simp [putAll]
  | cons entry rest ih =>
      have hNew : entry.1 ∉ entries.names := by
        simp only [names, List.map_append, List.map_cons, List.nodup_append] at hNodup
        exact fun hMem => hNodup.2.2 entry.1 hMem entry.1 (by simp) rfl
      have hStep : putAll entries (entry :: rest) = putAll (put entry.1 entry.2 entries) rest := rfl
      rw [hStep, put_of_notMem hNew, ih (by simpa using hNodup)]
      simp

theorem mem_names_put {name other : String} {value : α} {entries : Entries α} :
    other ∈ (put name value entries).names ↔ other = name ∨ other ∈ entries.names := by
  rw [names_put]
  split
  · rename_i hName
    exact ⟨Or.inr, fun h => h.elim (fun hSame => hSame ▸ hName) id⟩
  · rw [List.mem_append, List.mem_singleton, or_comm]

theorem mem_names_putAll {name : String} {entries further : Entries α} :
    name ∈ (putAll entries further).names ↔ name ∈ entries.names ∨ name ∈ further.names := by
  induction further generalizing entries with
  | nil => simp [putAll, names]
  | cons entry rest ih =>
      have hStep : name ∈ (putAll entries (entry :: rest)).names ↔
          name ∈ (put entry.1 entry.2 entries).names ∨ name ∈ Entries.names rest := ih
      rw [hStep, mem_names_put, or_comm (a := name = entry.1), or_assoc]
      exact or_congr_right List.mem_cons.symm

/-- Only the last value that is put under a name counts. -/
theorem put_put_self (name : String) (first second : α) (entries : Entries α) :
    put name second (put name first entries) = put name second entries := by
  induction entries with
  | nil => simp [put]
  | cons entry rest ih =>
      obtain ⟨other, old⟩ := entry
      by_cases hName : other = name
      · simp [put, hName]
      · simp [put, hName, ih]

/-- A name that has a place may get its value before or after another name does. -/
theorem put_comm_of_mem {name other : String} (hOther : other ≠ name) (value further : α) {entries : Entries α}
    (hName : name ∈ entries.names) :
    put name value (put other further entries) = put other further (put name value entries) := by
  induction entries with
  | nil => cases hName
  | cons entry rest ih =>
      obtain ⟨first, old⟩ := entry
      by_cases hFirst : first = name
      · subst hFirst
        simp [put, hOther.symm]
      · have hRest : name ∈ Entries.names rest :=
          (List.mem_cons.mp hName).resolve_left fun hSame => hFirst hSame.symm
        by_cases hSecond : first = other
        · simp [put, hSecond, hOther]
        · simp [put, hFirst, hSecond, ih hRest]

/-- A name that has its place already may be given its value before or after other names. -/
theorem put_putAll_of_mem {name : String} (value : α) {entries further : Entries α} (hName : name ∈ entries.names)
    (hNew : name ∉ further.names) : put name value (putAll entries further) = putAll (put name value entries) further := by
  induction further generalizing entries with
  | nil => rfl
  | cons entry rest ih =>
      simp only [names, List.map_cons, List.mem_cons, not_or] at hNew
      have hStep := ih (mem_names_put.mpr (Or.inr hName) : name ∈ (put entry.1 entry.2 entries).names) hNew.2
      rw [put_comm_of_mem (Ne.symm hNew.1) value entry.2 hName] at hStep
      exact hStep

/-- A further entry may be put into what is put, where it takes the place of an entry with its name. -/
theorem put_putAll {name : String} (value : α) (entries : Entries α) {further : Entries α}
    (hNodup : further.names.Nodup) : put name value (putAll entries further) = putAll entries (put name value further) := by
  induction further generalizing entries with
  | nil => rfl
  | cons entry rest ih =>
      obtain ⟨other, old⟩ := entry
      simp only [names, List.map_cons, List.nodup_cons] at hNodup
      by_cases hName : other = name
      · subst hName
        have hPlace : other ∈ (put other old entries).names := mem_names_put.mpr (Or.inl rfl)
        have hPut := put_putAll_of_mem value hPlace hNodup.1
        rw [put_put_self] at hPut
        simpa [put, putAll] using hPut
      · have hPut := ih (put other old entries) hNodup.2
        simpa [put, hName, putAll] using hPut

/-- Entries that are put one after the other may be put together first. -/
theorem putAll_putAll (entries : Entries α) {first : Entries α} (hNodup : first.names.Nodup) (second : Entries α) :
    putAll (putAll entries first) second = putAll entries (putAll first second) := by
  induction second generalizing first with
  | nil => rfl
  | cons entry rest ih =>
      have hStep := ih (nodup_names_put entry.1 entry.2 first hNodup)
      rw [← put_putAll entry.2 entries hNodup] at hStep
      exact hStep

/-- Putting a value that is there already changes nothing. -/
theorem put_of_find? {name : String} {value : α} {entries : Entries α} (hFind : entries.find? name = some value) :
    put name value entries = entries := by
  induction entries with
  | nil => cases hFind
  | cons entry rest ih =>
      obtain ⟨other, old⟩ := entry
      by_cases hName : other = name
      · simp only [find?, hName, if_true, Option.some.injEq] at hFind
        simp [put, hName, hFind]
      · simp only [find?, hName, if_false] at hFind
        simp [put, hName, ih hFind]

/-- Entries that are there already change nothing. -/
theorem putAll_of_find? {entries further : Entries α}
    (hFurther : ∀ entry ∈ further, entries.find? entry.1 = some entry.2) : putAll entries further = entries := by
  induction further with
  | nil => rfl
  | cons entry rest ih =>
      obtain ⟨hFirst, hRest⟩ := List.forall_mem_cons.mp hFurther
      have hStep : putAll entries (entry :: rest) = putAll (put entry.1 entry.2 entries) rest := rfl
      rw [hStep, put_of_find? hFirst, ih hRest]

section Filter

variable (keep : String → Bool)

/-- Names may be dropped before or after a value is put. -/
theorem filter_put (name : String) (value : α) (entries : Entries α) :
    (put name value entries).filter (fun entry => keep entry.1) =
      if keep name then put name value (entries.filter fun entry => keep entry.1)
      else entries.filter fun entry => keep entry.1 := by
  induction entries with
  | nil => simp [put, List.filter_cons]
  | cons entry rest ih =>
      obtain ⟨other, old⟩ := entry
      by_cases hName : other = name
      · subst hName
        by_cases hKeep : keep other = true <;> simp [put, hKeep]
      · by_cases hOther : keep other = true
        · simp only [put, hName, if_false, hOther, List.filter_cons_of_pos, ih]
          split <;> rfl
        · simp [put, hName, hOther, ih]

theorem filter_putAll (entries further : Entries α) :
    (putAll entries further).filter (fun entry => keep entry.1) =
      putAll (entries.filter fun entry => keep entry.1) (further.filter fun entry => keep entry.1) := by
  induction further generalizing entries with
  | nil => rfl
  | cons entry rest ih =>
      have hStep := ih (put entry.1 entry.2 entries)
      rw [filter_put] at hStep
      rw [List.filter_cons]
      split
      · rename_i hKeep
        rw [if_pos hKeep] at hStep
        exact hStep
      · rename_i hDrop
        rw [if_neg hDrop] at hStep
        exact hStep

end Filter

end Entries

namespace OrderedMap

variable {α : Type u}

theorem entries_ofList (entries : List (String × α)) : (ofList entries).entries = Entries.ofList entries := by
  have hFold (map : OrderedMap α) :
      (entries.foldl (fun map entry => map.put entry.1 entry.2) map).entries =
        map.entries.putAll entries := by
    induction entries generalizing map with
    | nil => rfl
    | cons entry rest ih => exact ih (map.put entry.1 entry.2)
  exact hFold empty

theorem entries_ofList_of_nodup {entries : Entries α} (hNodup : entries.names.Nodup) :
    (ofList entries).entries = entries := by
  rw [entries_ofList]
  exact Entries.putAll_of_nodup hNodup

theorem mem_names_iff_find? (map : OrderedMap α) (name : String) :
    name ∈ map.names ↔ ∃ value, map.find? name = some value :=
  (Entries.find?_isSome_iff name map.entries).symm.trans Option.isSome_iff_exists

/-- There are no more different names of a map than it has entries. -/
theorem length_le_size (map : OrderedMap α) {names : List String} (hNodup : names.Nodup)
    (hNames : names ⊆ map.names) : names.length ≤ map.size := by
  calc names.length ≤ map.names.length := (List.subperm_of_subset hNodup hNames).length_le
    _ = map.size := by simp [OrderedMap.names, Entries.names, size]

/-- Names occur once in a map, so its entries are what is found in it. -/
theorem mem_entries_iff_find? (map : OrderedMap α) (name : String) (value : α) :
    (name, value) ∈ map.entries ↔ map.find? name = some value :=
  Entries.mem_iff_find? map.nodup name value

theorem names_ofList (entries : List (String × α)) :
    (ofList entries).names = (entries.map Prod.fst).eraseDups := by
  rw [names, entries_ofList, Entries.names_ofList]

/-- A name has the value of the last entry with that name. -/
theorem find?_ofList (entries : List (String × α)) (name : String) :
    (ofList entries).find? name = ((entries.filter fun entry => entry.1 = name).getLast?).map Prod.snd := by
  rw [find?, entries_ofList, Entries.ofList, Entries.find?_putAll]
  exact Option.or_none

/-- The values are what is found under the names, in their order. -/
theorem values_eq_filterMap (map : OrderedMap α) : map.values = map.names.filterMap map.find? := by
  have hFound : ∀ entry ∈ map.entries, map.find? entry.1 = some entry.2 :=
    fun entry hMem => (map.mem_entries_iff_find? entry.1 entry.2).mp hMem
  rw [values, names, Entries.names, List.filterMap_map, ← List.filterMap_eq_map]
  exact List.filterMap_congr fun entry hMem => (hFound entry hMem).symm

theorem mem_of_find?_ofList {entries : List (String × α)} {name : String} {value : α}
    (hFind : (ofList entries).find? name = some value) : (name, value) ∈ entries := by
  have hMem := ((ofList entries).mem_entries_iff_find? name value).mpr hFind
  rw [entries_ofList] at hMem
  exact (Entries.mem_putAll hMem).resolve_left (by simp)

end OrderedMap

end SchemaForge
