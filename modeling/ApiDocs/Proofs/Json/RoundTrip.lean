import ApiDocs.Json.Reader
import ApiDocs.Proofs.Json.Spelling

/-! A rendered value is read back, and from its text alone: the reader is not told the indent. -/

namespace ApiDocs.Json

/-- A value cannot begin with the end of a list, so the list that was opened last has an item. -/
private theorem foldlM_firstItem (v : Json) (rest : List Token) (stack : List Frame) :
    (v.tokens ++ rest).foldlM advance (stack, .firstItem) =
      (v.tokens ++ rest).foldlM advance (.item [] :: stack, .value) := by
  cases v <;> simp [tokens, advance, begin?]

private theorem foldlM_key (key : String) (rest : List Token) (stack : List Frame)
    (before : List (String × Json)) :
    (.str key :: .colon :: rest).foldlM advance (stack, .key before) =
      rest.foldlM advance (.field before key :: stack, .value) := by
  simp [advance]

private theorem foldlM_firstKey (key : String) (rest : List Token) (stack : List Frame) :
    (.str key :: .colon :: rest).foldlM advance (stack, .firstKey) =
      rest.foldlM advance (.field [] key :: stack, .value) := by
  simp [advance]

mutual

/-- The tokens of a value are read as this value, whatever is open around it. -/
theorem foldlM_tokens (rest : List Token) (stack : List Frame) :
    ∀ v : Json, (v.tokens ++ rest).foldlM advance (stack, .value) =
      rest.foldlM advance (stack, .done v)
  | .str s => by
    simp [tokens, advance, begin?]
  | .word w => by
    simp [tokens, advance, begin?]
  | .arr [] => by
    simp [tokens, itemTokens, advance, begin?]
  | .arr (v :: items) => by
    have inner := foldlM_tokens (itemTokens false items ++ .rightBracket :: rest)
      (.item [] :: stack) v
    have others := foldlM_itemTokens rest stack [] v items
    -- the reader is still ready for an empty list when the first item comes
    rw [← foldlM_firstItem, others] at inner
    simpa [tokens, itemTokens, advance, begin?] using inner
  | .obj [] => by
    simp [tokens, fieldTokens, advance, begin?]
  | .obj ((key, v) :: fields) => by
    have inner := foldlM_tokens (fieldTokens false fields ++ .rightBrace :: rest)
      (.field [] key :: stack) v
    have others := foldlM_fieldTokens rest stack [] key v fields
    rw [← foldlM_firstKey, others] at inner
    simpa [tokens, fieldTokens, advance, begin?] using inner

/-- After an item come the others, up to the end of the list. -/
theorem foldlM_itemTokens (rest : List Token) (stack : List Frame) (before : List Json) (v : Json) :
    ∀ items : List Json,
      (itemTokens false items ++ .rightBracket :: rest).foldlM advance
          (.item before :: stack, .done v) =
        rest.foldlM advance (stack, .done (.arr (before ++ v :: items)))
  | [] => by
    simp [itemTokens, advance]
  | w :: items => by
    have inner := foldlM_tokens (itemTokens false items ++ .rightBracket :: rest)
      (.item (before ++ [v]) :: stack) w
    have others := foldlM_itemTokens rest stack (before ++ [v]) w items
    rw [others] at inner
    simpa [itemTokens, advance] using inner

/-- After a field come the others, up to the end of the object. -/
theorem foldlM_fieldTokens (rest : List Token) (stack : List Frame)
    (before : List (String × Json)) (key : String) (v : Json) :
    ∀ fields : List (String × Json),
      (fieldTokens false fields ++ .rightBrace :: rest).foldlM advance
          (.field before key :: stack, .done v) =
        rest.foldlM advance (stack, .done (.obj (before ++ (key, v) :: fields)))
  | [] => by
    simp [fieldTokens, advance]
  | (k, w) :: fields => by
    have inner := foldlM_tokens (fieldTokens false fields ++ .rightBrace :: rest)
      (.field (before ++ [(key, v)]) k :: stack) w
    have others := foldlM_fieldTokens rest stack (before ++ [(key, v)]) k w fields
    rw [← foldlM_key, others] at inner
    simpa [fieldTokens, advance] using inner

end

theorem ofTokens?_tokens (v : Json) : ofTokens? v.tokens = some v := by
  have run := foldlM_tokens [] [] v
  rw [List.append_nil] at run
  simp [ofTokens?, run]

/-- Whatever the indent, the text of a value says which value it is. -/
theorem read?_text {v : Json} (h : v.plain = true) (indent : Nat) :
    read? (v.text indent) = some v := by
  rw [read?, text, String.toList_ofList, tokensFrom_render h indent]
  exact ofTokens?_tokens v

example : read? "[\n  \"a\\\"\\u0001]\"\n]" = some (.arr [.str "a\"\x01]"]) := by cbv

end ApiDocs.Json
