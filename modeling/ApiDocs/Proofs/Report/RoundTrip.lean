import ApiDocs.Proofs.Json.RoundTrip
import ApiDocs.Report.Json
import ApiDocs.Report.Reader
import Mathlib.Logic.Function.Defs

/-! The text of a report holds the report: it is read back whole, and two reports never have one
text. -/

namespace ApiDocs

open Json

namespace Report

/-! ## A report is made of strings alone -/

theorem allFieldsPlain_optional (key : String) (s : Option String) :
    allFieldsPlain (optional key s) = true := by
  cases s <;> simp [optional, allFieldsPlain, plain]

theorem allPlain_map {α : Type} {f : α → Json} (h : ∀ a, (f a).plain = true) (l : List α) :
    allPlain (l.map f) = true := by
  rw [allPlain_iff]
  intro v hv
  obtain ⟨a, _, rfl⟩ := List.mem_map.mp hv
  exact h a

theorem plain_strings (l : List String) : (strings l).plain = true := by
  rw [strings, plain]
  exact allPlain_map (fun _ => by simp [plain]) l

theorem Package.plain_toJson (p : Package) : p.toJson.plain = true := by
  simp [toJson, plain, allFieldsPlain, allFieldsPlain_optional]

theorem Return.plain_toJson (r : Return) : r.toJson.plain = true := by
  simp [toJson, plain, allFieldsPlain, allFieldsPlain_optional]

theorem Argument.plain_toJson (a : Argument) : a.toJson.plain = true := by
  simp [toJson, plain, allFieldsPlain, allFieldsPlain_optional]

theorem Method.plain_toJson (m : Method) : m.toJson.plain = true := by
  have arguments := allPlain_map Argument.plain_toJson m.arguments
  simp [toJson, plain, allFieldsPlain, m.returns.plain_toJson, arguments, plain_strings]

theorem Class.plain_toJson (c : Class) : c.toJson.plain = true := by
  have methods := allPlain_map Method.plain_toJson c.methods
  simp [toJson, plain, allFieldsPlain, allFieldsPlain_append, allFieldsPlain_optional, methods,
    plain_strings]

theorem plain_toJson (r : Report) : r.toJson.plain = true := by
  have classes := allPlain_map Class.plain_toJson r.classes
  have packages := allPlain_map Package.plain_toJson r.packages
  simp [toJson, plain, allFieldsPlain, classes, packages]

/-! ## Each record from its value -/

theorem list?_map {α : Type} {f : α → Json} {item? : Json → Option α}
    (h : ∀ a, item? (f a) = some a) (l : List α) : list? item? (.arr (l.map f)) = some l := by
  induction l with
  | nil => rfl
  | cons a l ih =>
    simp only [list?] at ih
    simp [list?, h a, ih]

theorem list?_strings (l : List String) : list? string? (strings l) = some l :=
  list?_map (f := Json.str) (fun _ => rfl) l

theorem Package.ofJson?_toJson (p : Package) : ofJson? p.toJson = some p := by
  obtain ⟨name, _ | doc⟩ := p <;>
    simp [ofJson?, toJson, fields?, required?, optional?, optional, string?, List.lookup_cons]

theorem Return.ofJson?_toJson (r : Return) : ofJson? r.toJson = some r := by
  obtain ⟨type, _ | doc⟩ := r <;>
    simp [ofJson?, toJson, fields?, required?, optional?, optional, string?, List.lookup_cons]

theorem Argument.ofJson?_toJson (a : Argument) : ofJson? a.toJson = some a := by
  obtain ⟨name, type, _ | doc⟩ := a <;>
    simp [ofJson?, toJson, fields?, required?, optional?, optional, string?, List.lookup_cons]

theorem Method.ofJson?_toJson (m : Method) : ofJson? m.toJson = some m := by
  have arguments := list?_map Argument.ofJson?_toJson m.arguments
  have annotations := list?_strings m.annotations
  have returns := m.returns.ofJson?_toJson
  simp [ofJson?, toJson, fields?, required?, string?, List.lookup_cons, arguments, annotations, returns]

theorem Class.ofJson?_toJson (c : Class) : ofJson? c.toJson = some c := by
  obtain ⟨name, doc, superclass, interfaces, methods⟩ := c
  have implemented := list?_strings interfaces
  have declared := list?_map Method.ofJson?_toJson methods
  cases superclass <;>
    simp [ofJson?, toJson, fields?, required?, optional?, optional, string?, List.lookup_cons,
      implemented, declared]

theorem ofJson?_toJson (r : Report) : ofJson? r.toJson = some r := by
  have classes := list?_map Class.ofJson?_toJson r.classes
  have packages := list?_map Package.ofJson?_toJson r.packages
  simp [ofJson?, toJson, fields?, required?, List.lookup_cons, classes, packages]

/-! ## The report from its text -/

/-- The one reader gives back what was written under any indent. -/
theorem read?_text (r : Report) (indent : Int) : Json.read? (r.text indent) = some r.toJson :=
  Json.read?_text r.plain_toJson indent.toNat

/-- Not even two indents bring two reports to one text. -/
theorem eq_of_text_eq {r₁ r₂ : Report} {indent₁ indent₂ : Int}
    (same : r₁.text indent₁ = r₂.text indent₂) : r₁ = r₂ := by
  have value : r₁.toJson = r₂.toJson := by
    apply Option.some.inj
    rw [← read?_text r₁ indent₁, ← read?_text r₂ indent₂, same]
  apply Option.some.inj
  rw [← ofJson?_toJson r₁, ← ofJson?_toJson r₂, value]

/-- The text of a report is a faithful image of it, under any indent: its value is read from it
with the keys in their order, the report is found in this value, the value is written as the same
text again, and no other report has this text. -/
theorem text_faithful (indent : Int) :
    (∀ r : Report, ∃ v, Json.read? (r.text indent) = some v ∧ v = r.toJson ∧ ofJson? v = some r ∧
      v.text indent.toNat = r.text indent) ∧
    Function.Injective fun r : Report => r.text indent := by
  constructor
  · intro r
    exact ⟨r.toJson, read?_text r indent, rfl, ofJson?_toJson r, rfl⟩
  · intro r₁ r₂ same
    exact eq_of_text_eq same

end Report

end ApiDocs
