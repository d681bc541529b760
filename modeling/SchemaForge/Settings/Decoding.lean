import SchemaForge.Settings.Basic
import SchemaForge.Settings.Document

/-! Settings and rules as documents. Fields that are missing keep their standard value, and a field of
another kind than expected makes the whole document invalid. -/
namespace SchemaForge

namespace Decoding

variable {δ α : Type}

/-- A field that may be missing. -/
def fieldOr (decode : δ → Option α) (standard : α) (name : String) (fields : Entries δ) : Option α :=
  match fields.find? name with
  | none => some standard
  | some value => decode value

/-- A field that must be there. -/
def field? (decode : δ → Option α) (name : String) (fields : Entries δ) : Option α :=
  (fields.find? name).bind decode

/-- A list of which every element is decoded. -/
def listOf? [DocumentFormat δ] (decode : δ → Option α) (document : δ) : Option (List α) := do
  (← DocumentFormat.list? document).mapM decode

end Decoding

open Decoding DocumentFormat

variable {δ : Type} [DocumentFormat δ]

def ManagedFields.ofDocument? (document : δ) : Option ManagedFields := do
  let fields ← fields? ["id", "created_at", "updated_at"] document
  return {
    id := ← fieldOr text? ManagedFields.standard.id "id" fields
    createdAt := ← fieldOr text? ManagedFields.standard.createdAt "created_at" fields
    updatedAt := ← fieldOr text? ManagedFields.standard.updatedAt "updated_at" fields }

def MandatoryField.ofDocument? (document : δ) : Option MandatoryField := do
  let fields ← fields? ["name", "message"] document
  return {
    name := ← field? text? "name" fields
    message := ← field? text? "message" fields }

namespace Policy

def ofDocument? (document : δ) : Option Policy := do
  let fields ← fields? ["server_fields", "mandatory_fields"] document
  return {
    managed := ← fieldOr ManagedFields.ofDocument? Policy.standard.managed "server_fields" fields
    mandatory :=
      ← fieldOr (listOf? MandatoryField.ofDocument?) Policy.standard.mandatory
        "mandatory_fields" fields }

def toJson (policy : Policy) : Json :=
  .object [
    ("server_fields", .object [
      ("id", .string policy.managed.id),
      ("created_at", .string policy.managed.createdAt),
      ("updated_at", .string policy.managed.updatedAt)]),
    ("mandatory_fields", .array (policy.mandatory.map fun field =>
      .object [("name", .string field.name), ("message", .string field.message)]))]

end Policy

def Settings.ofDocument? (document : δ) : Option Settings := do
  let fields ← fields? ["source", "output", "compiler", "data"] document
  let source ← fieldOr (fields? ["file"]) [] "source" fields
  let output ← fieldOr (fields? ["dir", "file"]) [] "output" fields
  let data ← fieldOr (fields? ["dir"]) [] "data" fields
  return {
    source := ← fieldOr text? Settings.standard.source "file" source
    outputDirectory := ← fieldOr text? Settings.standard.outputDirectory "dir" output
    outputFile := ← fieldOr text? Settings.standard.outputFile "file" output
    dataDirectory := ← fieldOr text? Settings.standard.dataDirectory "dir" data
    policy := ← fieldOr Policy.ofDocument? Settings.standard.policy "compiler" fields }

end SchemaForge
