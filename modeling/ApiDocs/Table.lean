/-! Named values in the order in which their names first came. -/

namespace ApiDocs

structure Table (α : Type) where
  entries : List (String × α) := []

namespace Table

variable {α : Type}

def empty : Table α := ⟨[]⟩

def names (t : Table α) : List String := t.entries.map Prod.fst

def values (t : Table α) : List α := t.entries.map Prod.snd

def get? (t : Table α) (name : String) : Option α := t.entries.lookup name

def contains (t : Table α) (name : String) : Bool := t.names.contains name

def putIn (name : String) (value : α) : List (String × α) → List (String × α)
  | [] => [(name, value)]
  | e :: r => if e.1 = name then (name, value) :: r else e :: putIn name value r

/-- A known name keeps its place and takes the new value. -/
def put (t : Table α) (name : String) (value : α) : Table α := ⟨putIn name value t.entries⟩

/-- A known name keeps its place and its value. -/
def putNew (t : Table α) (name : String) (value : α) : Table α :=
  if t.contains name then t else ⟨t.entries ++ [(name, value)]⟩

/-- Of several values for one name the first stays. -/
def putNewAll (t : Table α) (l : List (String × α)) : Table α :=
  l.foldl (fun t e => t.putNew e.1 e.2) t

theorem names_putIn (name : String) (value : α) (l : List (String × α)) :
    (putIn name value l).map Prod.fst =
      if name ∈ l.map Prod.fst then l.map Prod.fst else l.map Prod.fst ++ [name] := by
  induction l with
  | nil => simp [putIn]
  | cons e r ih =>
    by_cases h : e.1 = name
    · simp [putIn, h]
    · have h' : ¬ name = e.1 := fun e => h e.symm
      simp only [putIn, h, if_false, List.map_cons, ih, List.mem_cons, h', false_or]
      split <;> simp

theorem names_put (t : Table α) (name : String) (value : α) :
    (t.put name value).names = if name ∈ t.names then t.names else t.names ++ [name] :=
  names_putIn name value t.entries

theorem names_putNew (t : Table α) (name : String) (value : α) :
    (t.putNew name value).names = if name ∈ t.names then t.names else t.names ++ [name] := by
  by_cases h : name ∈ t.names <;> simp_all [putNew, contains, names]

theorem contains_iff {t : Table α} {name : String} : t.contains name = true ↔ name ∈ t.names := by
  simp [contains]

theorem lookup_cons_eq (name : String) (e : String × α) (l : List (String × α)) :
    (e :: l).lookup name = if name = e.1 then some e.2 else l.lookup name := by
  obtain ⟨known, value⟩ := e
  by_cases h : name = known
  · simp [h]
  · have hb : (name == known) = false := by simpa using h
    simp [List.lookup_cons, h, hb]

theorem lookup_putIn (name other : String) (value : α) (l : List (String × α)) :
    (putIn name value l).lookup other = if other = name then some value else l.lookup other := by
  induction l with
  | nil => rw [putIn, lookup_cons_eq]
  | cons e r ih =>
    by_cases h : e.1 = name
    · by_cases ho : other = name <;> simp [putIn, lookup_cons_eq, h, ho]
    · by_cases ho : other = e.1
      · simp [putIn, lookup_cons_eq, h, ho]
      · simp [putIn, lookup_cons_eq, h, ho, ih]

theorem get?_eq_none_iff {t : Table α} {name : String} :
    t.get? name = none ↔ name ∉ t.names := by
  unfold get? names
  induction t.entries with
  | nil => simp
  | cons e r ih => by_cases h : name = e.1 <;> simp [lookup_cons_eq, h, ih]

theorem get?_put (t : Table α) (name other : String) (value : α) :
    (t.put name value).get? other = if other = name then some value else t.get? other :=
  lookup_putIn name other value t.entries

theorem get?_putNew (t : Table α) (name other : String) (value : α) :
    (t.putNew name value).get? other =
      (t.get? other).or (if other = name then some value else none) := by
  by_cases hn : name ∈ t.names
  · have known : t.putNew name value = t := by simp [putNew, contains_iff.mpr hn]
    rw [known]
    by_cases ho : other = name
    · subst ho
      cases hg : t.get? other with
      | none => exact absurd hn (get?_eq_none_iff.mp hg)
      | some v => rfl
    · simp [ho]
  · have new : t.putNew name value = ⟨t.entries ++ [(name, value)]⟩ := by
      simp [putNew, contains, hn]
    rw [new]
    by_cases ho : other = name <;> simp [get?, List.lookup_append, lookup_cons_eq, ho]

theorem get?_putNewAll (t : Table α) (l : List (String × α)) (name : String) :
    (t.putNewAll l).get? name = (t.get? name).or (l.lookup name) := by
  induction l generalizing t with
  | nil => simp [putNewAll]
  | cons e r ih =>
    have step : t.putNewAll (e :: r) = (t.putNew e.1 e.2).putNewAll r := rfl
    rw [step, ih, get?_putNew, lookup_cons_eq, Option.or_assoc]
    by_cases h : name = e.1 <;> simp [h]

theorem prefix_putNewAll (t : Table α) (l : List (String × α)) :
    t.entries <+: (t.putNewAll l).entries := by
  induction l generalizing t with
  | nil => exact List.prefix_rfl
  | cons e r ih =>
    refine List.IsPrefix.trans ?_ (ih (t.putNew e.1 e.2))
    unfold putNew
    split
    · exact List.prefix_rfl
    · exact List.prefix_append _ _

end Table

end ApiDocs
