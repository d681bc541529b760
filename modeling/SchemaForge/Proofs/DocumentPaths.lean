import Mathlib.Data.List.Nodup
import SchemaForge.Proofs.OrderedMap
import SchemaForge.Schema.Check

/-! Paths into documents. The parts of a document have names: the members of an object their own, the elements of an
array their indices. A path of names is written with dots between them, and can be read back if no name is empty or
contains a dot. -/
namespace SchemaForge

namespace Json

/-- The members of an object, or the elements of an array under their indices in decimal digits. -/
def parts : Json → Entries Json
  | .object members => members
  | .array elements => elements.zipIdx.map fun element => (toString element.2, element.1)
  | _ => []

def part? (name : String) (document : Json) : Option Json :=
  document.parts.find? name

def walk? : Path → Json → Option Json
  | [], document => some document
  | name :: rest, document => (document.part? name).bind (walk? rest)

theorem toString_injective : Function.Injective (toString : Nat → String) := by
  intro first second hSame
  have hDigits : Nat.toDigits 10 first = Nat.toDigits 10 second := by
    rw [← Nat.toList_repr, ← Nat.toList_repr]
    exact congrArg String.toList hSame
  calc first = Nat.ofDigitChars 10 (Nat.toDigits 10 first) 0 := Nat.ofDigitChars_ten_toDigits.symm
    _ = Nat.ofDigitChars 10 (Nat.toDigits 10 second) 0 := by rw [hDigits]
    _ = second := Nat.ofDigitChars_ten_toDigits

/-- The elements of an array have different names. -/
theorem nodup_indexNames (elements : List Json) : (elements.zipIdx.map fun element => toString element.2).Nodup := by
  have hNames : (elements.zipIdx.map fun element => toString element.2) =
      (List.range' 0 elements.length).map toString := by
    rw [← List.zipIdx_map_snd 0 elements, List.map_map]
    rfl
  rw [hNames]
  exact List.Nodup.map toString_injective List.nodup_range'

/-- Every element of an array is its part under the index. -/
theorem part?_array {elements : List Json} {element : Json × Nat} (hMem : element ∈ elements.zipIdx) :
    (Json.array elements).part? (toString element.2) = some element.1 := by
  have hNodup : (Json.array elements).parts.names.Nodup := by
    simpa [parts, Entries.names, Function.comp_def] using nodup_indexNames elements
  apply (Entries.mem_iff_find? hNodup _ _).mp
  exact List.mem_map.mpr ⟨element, hMem, rfl⟩

end Json

/-- The name is not empty and contains no dot. -/
def IsPlainName (name : String) : Prop :=
  name ≠ "" ∧ '.' ∉ name.toList

instance (name : String) : Decidable (IsPlainName name) :=
  inferInstanceAs (Decidable (name ≠ "" ∧ '.' ∉ name.toList))

/-- Digits are no dots, and every index has some. -/
theorem isPlainName_toString (index : Nat) : IsPlainName (toString index) := by
  refine ⟨Nat.repr_ne_empty, fun hDot => ?_⟩
  have hDigit : '.' ∈ Nat.toDigits 10 index := by
    rw [← Nat.toList_repr]
    exact hDot
  exact absurd (Nat.isDigit_of_mem_toDigits (by omega) (by omega) hDigit) (by decide)

/-- The names between the dots of a field. The empty field is the document itself. -/
def segmentsOf (field : String) : Path :=
  if field = "" then [] else (field.toList.splitOn '.').map String.ofList

/-- A path of plain names is read back from its field. -/
theorem segmentsOf_intercalate {path : Path} (hPlain : ∀ name ∈ path, IsPlainName name) :
    segmentsOf (".".intercalate path) = path := by
  cases path with
  | nil => rfl
  | cons name rest =>
      have hName := hPlain name List.mem_cons_self
      have hField : ".".intercalate (name :: rest) ≠ "" := by
        cases rest with
        | nil => simpa using hName.1
        | cons next rest =>
            rw [String.intercalate_cons_cons]
            simp
      have hDots : ∀ chars ∈ (name :: rest).map String.toList, '.' ∉ chars := by
        intro chars hChars
        obtain ⟨segment, hSegment, rfl⟩ := List.mem_map.mp hChars
        exact (hPlain segment hSegment).2
      have hSplit : ((".".intercalate (name :: rest)).toList).splitOn '.' = (name :: rest).map String.toList := by
        rw [String.toList_intercalate]
        exact List.splitOn_intercalate '.' hDots (by simp)
      rw [segmentsOf, if_neg hField, hSplit, List.map_map]
      simp [Function.comp_def, String.ofList_toList]

end SchemaForge
