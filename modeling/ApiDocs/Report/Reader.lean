import ApiDocs.Json.Basic
import ApiDocs.Report.Basic

/-! A report from a value. The fields of a record are found by their keys; an absent text is one
whose key is missing, and an empty text is not absent. -/

namespace ApiDocs.Report

def string? : Json → Option String
  | .str s => some s
  | _ => none

def list? {α : Type} (item? : Json → Option α) : Json → Option (List α)
  | .arr items => items.mapM item?
  | _ => none

def fields? : Json → Option (List (String × Json))
  | .obj fields => some fields
  | _ => none

def required? {α : Type} (fields : List (String × Json)) (key : String)
    (value? : Json → Option α) : Option α :=
  (fields.lookup key).bind value?

/-- The inner `none` is a missing key, the outer one a value of another form. -/
def optional? {α : Type} (fields : List (String × Json)) (key : String)
    (value? : Json → Option α) : Option (Option α) :=
  match fields.lookup key with
  | none => some none
  | some v => (value? v).map some

def Package.ofJson? (v : Json) : Option Package := do
  let fields ← fields? v
  return ⟨← required? fields "name" string?, ← optional? fields "doc" string?⟩

def Return.ofJson? (v : Json) : Option Return := do
  let fields ← fields? v
  return ⟨← required? fields "type" string?, ← optional? fields "doc" string?⟩

def Argument.ofJson? (v : Json) : Option Argument := do
  let fields ← fields? v
  return ⟨← required? fields "name" string?, ← required? fields "type" string?,
    ← optional? fields "doc" string?⟩

def Method.ofJson? (v : Json) : Option Method := do
  let fields ← fields? v
  return ⟨← required? fields "name" string?, ← required? fields "doc" string?,
    ← required? fields "returns" Return.ofJson?,
    ← required? fields "arguments" (list? Argument.ofJson?),
    ← required? fields "annotations" (list? string?)⟩

def Class.ofJson? (v : Json) : Option Class := do
  let fields ← fields? v
  return ⟨← required? fields "name" string?, ← required? fields "doc" string?,
    ← optional? fields "superclass" string?,
    ← required? fields "interfaces" (list? string?),
    ← required? fields "methods" (list? Method.ofJson?)⟩

def ofJson? (v : Json) : Option Report := do
  let fields ← fields? v
  return ⟨← required? fields "classes" (list? Class.ofJson?),
    ← required? fields "packages" (list? Package.ofJson?)⟩

end ApiDocs.Report
