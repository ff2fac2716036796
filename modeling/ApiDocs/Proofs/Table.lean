import ApiDocs.Table
import Mathlib.Data.List.Induction
import Mathlib.Data.List.Nodup

/-! Tables that were filled from empty: which names they hold and in which order, and that names
and values together are all there is to a table. -/

namespace ApiDocs.Table

variable {α : Type}

/-- A name that came before adds nothing. -/
theorem eraseDups_snoc (l : List String) (name : String) :
    (l ++ [name]).eraseDups = if name ∈ l then l.eraseDups else l.eraseDups ++ [name] := by
  rw [List.eraseDups_append]
  by_cases h : name ∈ l <;> simp [List.removeAll, h, List.eraseDups_cons]

theorem eraseDups_append_of_subset {l l' : List String} (known : l' ⊆ l) :
    (l ++ l').eraseDups = l.eraseDups := by
  have none : l'.removeAll l = [] := by
    rw [List.removeAll, List.filter_eq_nil_iff]
    intro name mem
    simpa using known mem
  rw [List.eraseDups_append, none, List.eraseDups_nil, List.append_nil]

theorem nodup_eraseDups (l : List String) : l.eraseDups.Nodup := by
  induction l using List.reverseRecOn with
  | nil => simp
  | append_singleton l name ih =>
    rw [eraseDups_snoc]
    split
    · exact ih
    · next new =>
      rw [List.nodup_append]
      refine ⟨ih, List.nodup_singleton name, ?_⟩
      intro a ha b hb hab
      rw [List.mem_singleton] at hb
      exact new (hb ▸ hab ▸ List.mem_eraseDups.mp ha)

theorem names_putNewAll_empty (l : List (String × α)) :
    (empty.putNewAll l).names = (l.map Prod.fst).eraseDups := by
  induction l using List.reverseRecOn with
  | nil => rfl
  | append_singleton l e ih =>
    have last : empty.putNewAll (l ++ [e]) = (empty.putNewAll l).putNew e.1 e.2 := by
      simp [putNewAll]
    rw [last, names_putNew, ih, List.map_append, List.map_singleton, eraseDups_snoc]
    simp only [List.mem_eraseDups]

/-- What is put into a table and was not there comes from the list. -/
theorem mem_entries_putNewAll {t : Table α} {l : List (String × α)} {e : String × α}
    (h : e ∈ (t.putNewAll l).entries) : e ∈ t.entries ∨ e ∈ l := by
  induction l generalizing t with
  | nil => exact .inl h
  | cons a rest ih =>
    have last : e ∈ (t.putNew a.1 a.2).entries ∨ e ∈ rest := ih h
    rcases last with h | h
    · unfold putNew at h
      split at h
      · exact .inl h
      · rcases List.mem_append.mp h with h | h
        · exact .inl h
        · exact .inr (List.mem_cons.mpr (.inl (List.mem_singleton.mp h)))
    · exact .inr (List.mem_cons_of_mem a h)

theorem mem_names_putNewAll {t : Table α} {l : List (String × α)} {name : String} :
    name ∈ (t.putNewAll l).names ↔ name ∈ t.names ∨ name ∈ l.map Prod.fst := by
  induction l generalizing t with
  | nil => simp [putNewAll]
  | cons e rest ih =>
    have first : name ∈ (t.putNew e.1 e.2).names ↔ name ∈ t.names ∨ name = e.1 := by
      rw [names_putNew]
      split
      · next known => exact ⟨.inl, fun h => h.elim id fun same => same ▸ known⟩
      · rw [List.mem_append, List.mem_singleton]
    change name ∈ ((t.putNew e.1 e.2).putNewAll rest).names ↔ _
    rw [ih, first, List.map_cons, List.mem_cons, or_assoc]

/-- Nothing changes just when all names are known. -/
theorem putNewAll_eq_self_iff {t : Table α} {l : List (String × α)} :
    t.putNewAll l = t ↔ ∀ name ∈ l.map Prod.fst, name ∈ t.names := by
  constructor
  · intro same name mem
    rw [← same, mem_names_putNewAll]
    exact .inr mem
  · intro known
    induction l with
    | nil => rfl
    | cons e rest ih =>
      obtain ⟨first, others⟩ := List.forall_mem_cons.mp known
      have same : t.putNew e.1 e.2 = t := if_pos (contains_iff.mpr first)
      change (t.putNew e.1 e.2).putNewAll rest = t
      rw [same, ih others]

theorem put_eq_self_iff {t : Table α} {name : String} {value : α} :
    t.put name value = t ↔ t.get? name = some value := by
  constructor
  · intro same
    rw [← same, get?_put, if_pos rfl]
  · intro found
    obtain ⟨entries⟩ := t
    change entries.lookup name = some value at found
    change Table.mk (putIn name value entries) = ⟨entries⟩
    congr 1
    induction entries with
    | nil => cases found
    | cons e r ih =>
      rw [lookup_cons_eq] at found
      by_cases same : name = e.1
      · rw [if_pos same, Option.some.injEq] at found
        rw [putIn, if_pos same.symm, same, ← found]
      · rw [if_neg same] at found
        rw [putIn, if_neg (Ne.symm same), ih found]

/-- The value under a name is the only one, if names are distinct. -/
theorem mem_entries_iff {t : Table α} (distinct : t.names.Nodup) {name : String} {value : α} :
    (name, value) ∈ t.entries ↔ t.get? name = some value := by
  obtain ⟨entries⟩ := t
  change (entries.map Prod.fst).Nodup at distinct
  change (name, value) ∈ entries ↔ entries.lookup name = some value
  induction entries with
  | nil => simp
  | cons e r ih =>
    obtain ⟨known, kept⟩ := e
    rw [List.map_cons, List.nodup_cons] at distinct
    rw [lookup_cons_eq, List.mem_cons, ih distinct.2]
    by_cases h : name = known
    · subst h
      have absent : r.lookup name ≠ some value := by
        intro found
        rw [← ih distinct.2] at found
        exact distinct.1 (List.mem_map.mpr ⟨(name, value), found, rfl⟩)
      simp [absent, eq_comm]
    · simp [h]

/-- Tables that agree on names and values differ in order at most. -/
theorem entries_perm {t s : Table α} (distinct : t.names.Nodup) (names : t.names.Perm s.names)
    (values : ∀ name, t.get? name = s.get? name) : t.entries.Perm s.entries := by
  have distinct' : s.names.Nodup := names.nodup_iff.mp distinct
  rw [List.perm_ext_iff_of_nodup (List.Nodup.of_map _ distinct) (List.Nodup.of_map _ distinct')]
  rintro ⟨name, value⟩
  rw [mem_entries_iff distinct, mem_entries_iff distinct', values]

/-- A table is its names with their values. -/
theorem eq_of_names {t s : Table α} (distinct : t.names.Nodup) (names : t.names = s.names)
    (values : ∀ name, t.get? name = s.get? name) : t = s := by
  have spelled : ∀ r : Table α, r.names.Nodup →
      r.entries.map (fun e => (e.1, some e.2)) = r.names.map fun name => (name, r.get? name) := by
    intro r distinct
    rw [Table.names, List.map_map]
    refine List.map_congr_left fun e mem => ?_
    rw [Function.comp_apply, (mem_entries_iff distinct).mp mem]
  have injective : Function.Injective fun e : String × α => (e.1, some e.2) := by
    intro a b same
    simpa [Prod.ext_iff] using same
  have entries : t.entries = s.entries := by
    refine List.map_injective_iff.mpr injective ?_
    simp only [spelled t distinct, spelled s (names ▸ distinct), names, values]
  obtain ⟨_⟩ := t
  cases entries
  rfl

end ApiDocs.Table
