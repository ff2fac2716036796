/-! Values of the JSON notation. The keys of an object keep their order. -/

namespace ApiDocs

inductive Json where
  | str (value : String)
  /-- A number, or one of true, false and null, as it is spelled. -/
  | word (spelling : String)
  | arr (items : List Json)
  | obj (fields : List (String × Json))

namespace Json

mutual

/-- Built from strings alone. -/
def plain : Json → Bool
  | .str _ => true
  | .word _ => false
  | .arr items => allPlain items
  | .obj fields => allFieldsPlain fields

def allPlain : List Json → Bool
  | [] => true
  | v :: rest => v.plain && allPlain rest

def allFieldsPlain : List (String × Json) → Bool
  | [] => true
  | (_, v) :: rest => v.plain && allFieldsPlain rest

end

theorem allPlain_iff {l : List Json} : allPlain l = true ↔ ∀ v ∈ l, v.plain = true := by
  induction l with
  | nil => simp [allPlain]
  | cons v rest ih => simp [allPlain, ih]

theorem allFieldsPlain_append (l₁ l₂ : List (String × Json)) :
    allFieldsPlain (l₁ ++ l₂) = (allFieldsPlain l₁ && allFieldsPlain l₂) := by
  induction l₁ with
  | nil => rfl
  | cons field l₁ ih => simp [allFieldsPlain, ih, Bool.and_assoc]

end Json

end ApiDocs
