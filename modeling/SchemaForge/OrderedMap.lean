/-! Maps from names to values that remember the order of their names. A name keeps the place where it
was first put, whatever value it gets later. Lists of named values serve inside recursive types; an
`OrderedMap` is such a list in which every name occurs once. -/
namespace SchemaForge

universe u

/-- Named values in order. -/
abbrev Entries (α : Type u) := List (String × α)

namespace Entries

variable {α : Type u}

def names (entries : Entries α) : List String :=
  entries.map Prod.fst

/-- The value of the first entry with this name. -/
def find? (name : String) : Entries α → Option α
  | [] => none
  | (other, value) :: rest => if other = name then some value else find? name rest

def has (name : String) (entries : Entries α) : Bool :=
  (entries.find? name).isSome

/-- Gives the name a value: at its place if it has one, at the end otherwise. -/
def put (name : String) (value : α) : Entries α → Entries α
  | [] => [(name, value)]
  | (other, old) :: rest =>
      if other = name then (other, value) :: rest else (other, old) :: put name value rest

def putAll (entries : Entries α) (further : List (String × α)) : Entries α :=
  further.foldl (fun result entry => put entry.1 entry.2 result) entries

/-- Puts the entries one after the other into an empty list. -/
def ofList (entries : List (String × α)) : Entries α :=
  putAll [] entries

theorem find?_isSome_iff (name : String) (entries : Entries α) :
    (entries.find? name).isSome = true ↔ name ∈ entries.names := by
  induction entries with
  | nil => simp [find?, names]
  | cons entry rest ih =>
      obtain ⟨other, value⟩ := entry
      by_cases hName : other = name
      · simp [find?, names, hName]
      · have hOther : ¬ name = other := fun h => hName h.symm
        simpa [find?, names, hName, hOther] using ih

theorem find?_put_self (name : String) (value : α) (entries : Entries α) :
    (put name value entries).find? name = some value := by
  induction entries with
  | nil => simp [put, find?]
  | cons entry rest ih =>
      obtain ⟨other, old⟩ := entry
      by_cases hName : other = name
      · simp [put, find?, hName]
      · simpa [put, find?, hName] using ih

/-- Other names keep their values. -/
theorem find?_put_of_ne {name other : String} (hNe : name ≠ other) (value : α)
    (entries : Entries α) : (put name value entries).find? other = entries.find? other := by
  induction entries with
  | nil => simp [put, find?, hNe]
  | cons entry rest ih =>
      obtain ⟨key, old⟩ := entry
      by_cases hName : key = name
      · subst hName
        simp [put, find?, hNe]
      · by_cases hOther : key = other
        · subst hOther
          simp [put, find?, hName]
        · simpa [put, find?, hName, hOther] using ih

/-- Putting a name changes the names only by adding a new one at the end. -/
theorem names_put (name : String) (value : α) (entries : Entries α) :
    (put name value entries).names =
      if name ∈ entries.names then entries.names else entries.names ++ [name] := by
  induction entries with
  | nil => simp [put, names]
  | cons entry rest ih =>
      obtain ⟨other, old⟩ := entry
      by_cases hName : other = name
      · simp [put, names, hName]
      · have hOther : ¬ name = other := fun h => hName h.symm
        have hStep : names (put name value rest) =
            if name ∈ names rest then names rest else names rest ++ [name] := ih
        by_cases hMem : name ∈ names rest
        · simp only [names, List.map_cons, put, hName, if_false] at hStep ⊢
          simp only [names] at hMem
          simp [hMem, hStep]
        · simp only [names, List.map_cons, put, hName, if_false] at hStep ⊢
          simp only [names] at hMem
          simp [hMem, hStep, hOther]

/-- Putting a value never makes a name occur twice, which is what the structure below keeps. -/
theorem nodup_names_put (name : String) (value : α) (entries : Entries α)
    (hNodup : entries.names.Nodup) : (put name value entries).names.Nodup := by
  rw [names_put]
  by_cases hMem : name ∈ entries.names
  · simpa [hMem] using hNodup
  · rw [if_neg hMem]
    refine List.nodup_append.mpr ⟨hNodup, by simp, ?_⟩
    intro a hA b hB hEq
    simp only [List.mem_singleton] at hB
    subst hB
    exact hMem (hEq ▸ hA)

end Entries

/-- Named values in order in which every name occurs once. -/
structure OrderedMap (α : Type u) where
  entries : Entries α
  nodup : entries.names.Nodup

namespace OrderedMap

variable {α : Type u}

def empty : OrderedMap α :=
  ⟨[], by simp [Entries.names]⟩

def put (name : String) (value : α) (map : OrderedMap α) : OrderedMap α :=
  ⟨map.entries.put name value, map.entries.nodup_names_put name value map.nodup⟩

def ofList (entries : List (String × α)) : OrderedMap α :=
  entries.foldl (fun map entry => map.put entry.1 entry.2) empty

def find? (name : String) (map : OrderedMap α) : Option α :=
  map.entries.find? name

def has (name : String) (map : OrderedMap α) : Bool :=
  map.entries.has name

def names (map : OrderedMap α) : List String :=
  map.entries.names

def values (map : OrderedMap α) : List α :=
  map.entries.map Prod.snd

def size (map : OrderedMap α) : Nat :=
  map.entries.length

end OrderedMap

end SchemaForge
