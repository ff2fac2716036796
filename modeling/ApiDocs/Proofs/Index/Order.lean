import ApiDocs.Proofs.Index.History

/-! Units in another order. As long as different units are compatible, the order of the units shows
in the order of the index and nowhere else. -/

namespace ApiDocs

namespace Index

/-- No type is built by both, and no package has a comment from both. -/
structure Compatible (u v : SourceUnit) : Prop where
  types : ∀ s ∈ u.types, ∀ t ∈ v.types, s.qualifiedName ≠ t.qualifiedName
  comments : ∀ name, u.commentFor name = none ∨ v.commentFor name = none

def AllCompatible (us : List SourceUnit) : Prop := ∀ u ∈ us, ∀ v ∈ us, u ≠ v → Compatible u v

/-! ## The value that only one element gives -/

private theorem findSome?_eq_some_iff_of_unique {α β : Type} {f : α → Option β} {l : List α}
    (unique : ∀ a ∈ l, ∀ a' ∈ l, ∀ b b', f a = some b → f a' = some b' → b = b') {b : β} :
    l.findSome? f = some b ↔ ∃ a ∈ l, f a = some b := by
  constructor
  · exact List.exists_of_findSome?_eq_some
  · rintro ⟨a, ha, hb⟩
    cases found : l.findSome? f with
    | none =>
      have := List.findSome?_eq_none_iff.mp found a ha
      rw [hb] at this
      cases this
    | some b' =>
      obtain ⟨a', ha', hb'⟩ := List.exists_of_findSome?_eq_some found
      rw [unique a ha a' ha' b b' hb hb']

private theorem findSome?_perm {α β : Type} {f : α → Option β} {l l' : List α} (perm : l.Perm l')
    (unique : ∀ a ∈ l, ∀ a' ∈ l, ∀ b b', f a = some b → f a' = some b' → b = b') :
    l.findSome? f = l'.findSome? f := by
  have unique' : ∀ a ∈ l', ∀ a' ∈ l', ∀ b b', f a = some b → f a' = some b' → b = b' :=
    fun a ha a' ha' => unique a (perm.mem_iff.mpr ha) a' (perm.mem_iff.mpr ha')
  apply Option.ext
  intro b
  rw [findSome?_eq_some_iff_of_unique unique, findSome?_eq_some_iff_of_unique unique']
  simp only [perm.mem_iff]

/-- Compatible units that both build a type of this name are one unit. -/
private theorem find?_types_unique {us : List SourceUnit} (h : AllCompatible us) (name : String) :
    ∀ u ∈ us, ∀ v ∈ us, ∀ s t : TypeDecl,
      u.types.find? (fun t => t.qualifiedName = name) = some s →
      v.types.find? (fun t => t.qualifiedName = name) = some t → s = t := by
  intro u hu v hv s t hs ht
  have sName : s.qualifiedName = name := by simpa using List.find?_some hs
  have tName : t.qualifiedName = name := by simpa using List.find?_some ht
  by_cases same : u = v
  · subst same
    exact Option.some.inj (hs.symm.trans ht)
  · exact absurd (sName.trans tName.symm) ((h u hu v hv same).types s
      (List.mem_of_find?_eq_some hs) t (List.mem_of_find?_eq_some ht))

private theorem commentFor_unique {us : List SourceUnit} (h : AllCompatible us) (name : String) :
    ∀ u ∈ us, ∀ v ∈ us, ∀ c d : Comment,
      u.commentFor name = some c → v.commentFor name = some d → c = d := by
  intro u hu v hv c d hc hd
  by_cases same : u = v
  · subst same
    exact Option.some.inj (hc.symm.trans hd)
  · rcases (h u hu v hv same).comments name with none | none
    · rw [none] at hc
      cases hc
    · rw [none] at hd
      cases hd

theorem find?_types_perm {us vs : List SourceUnit} (perm : us.Perm vs) (h : AllCompatible us)
    (name : String) :
    (us.flatMap SourceUnit.types).find? (fun t => t.qualifiedName = name) =
      (vs.flatMap SourceUnit.types).find? (fun t => t.qualifiedName = name) := by
  rw [List.find?_flatMap, List.find?_flatMap]
  exact findSome?_perm perm (find?_types_unique h name)

theorem lastComment_perm {us vs : List SourceUnit} (perm : us.Perm vs) (h : AllCompatible us)
    (name : String) : lastComment us name = lastComment vs name := by
  unfold lastComment
  rw [List.getLast?_filterMap, List.getLast?_filterMap]
  let documenting := fun u : SourceUnit => documentsPackage u.path
  have permReverse : (us.filter documenting).reverse.Perm (vs.filter documenting).reverse :=
    (List.reverse_perm _).trans ((perm.filter _).trans (List.reverse_perm _).symm)
  refine findSome?_perm permReverse ?_
  intro u hu v hv
  have mem : ∀ w, w ∈ (us.filter documenting).reverse → w ∈ us := fun w hw =>
    (List.mem_filter.mp (List.mem_reverse.mp hw)).1
  exact commentFor_unique h name u (mem u hu) v (mem v hv)

/-! ## The catalog -/

theorem eraseDups_perm {l l' : List String} (perm : l.Perm l') :
    l.eraseDups.Perm l'.eraseDups := by
  rw [List.perm_ext_iff_of_nodup (Table.nodup_eraseDups l) (Table.nodup_eraseDups l')]
  intro name
  rw [List.mem_eraseDups, List.mem_eraseDups, perm.mem_iff]

theorem IsHistory.nodup_types {us : List SourceUnit} {x : Index} (hx : IsHistory us x) :
    x.types.names.Nodup := by
  rw [hx.typeNames]
  exact Table.nodup_eraseDups _

theorem IsHistory.nodup_packages {us : List SourceUnit} {x : Index} (hx : IsHistory us x) :
    x.packages.names.Nodup := by
  rw [hx.packageNames]
  exact Table.nodup_eraseDups _

theorem types_perm {us vs : List SourceUnit} {x y : Index} (hx : IsHistory us x)
    (hy : IsHistory vs y) (perm : us.Perm vs) (h : AllCompatible us) :
    x.types.entries.Perm y.types.entries := by
  apply Table.entries_perm hx.nodup_types
  · rw [hx.typeNames, hy.typeNames]
    exact eraseDups_perm ((perm.flatMap_right _).map _)
  · intro name
    rw [hx.types, hy.types]
    exact find?_types_perm perm h name

theorem packages_perm {us vs : List SourceUnit} {x y : Index} (hx : IsHistory us x)
    (hy : IsHistory vs y) (perm : us.Perm vs) (h : AllCompatible us) :
    x.packages.entries.Perm y.packages.entries := by
  have names : x.packages.names.Perm y.packages.names := by
    rw [hx.packageNames, hy.packageNames]
    exact eraseDups_perm (perm.filterMap _)
  apply Table.entries_perm hx.nodup_packages names
  intro name
  by_cases known : name ∈ x.packages.names
  · rw [hx.comments name known, hy.comments name (names.mem_iff.mp known),
      lastComment_perm perm h]
  · rw [Table.get?_eq_none_iff.mpr known,
      Table.get?_eq_none_iff.mpr fun known' => known (names.mem_iff.mpr known')]

/-- A type is entered under its own name. -/
theorem catalog_typeNames {us : List SourceUnit} {x : Index} (hx : IsHistory us x) :
    x.catalog.types.map TypeDecl.qualifiedName = x.types.names := by
  unfold catalog Table.values Table.names
  rw [List.map_map]
  refine List.map_congr_left ?_
  rintro ⟨name, t⟩ mem
  have found := (Table.mem_entries_iff hx.nodup_types).mp mem
  rw [hx.types] at found
  simpa using List.find?_some found

theorem catalog_packageNames (x : Index) :
    x.catalog.packages.map Package.qualifiedName = x.packages.names := by
  simp [catalog, Table.names, Function.comp_def]

theorem nodup_catalog_types (us : List SourceUnit) :
    ((empty.addAll us).index.catalog.types.map TypeDecl.qualifiedName).Nodup := by
  rw [catalog_typeNames (isHistory_addAll_empty us)]
  exact (isHistory_addAll_empty us).nodup_types

theorem nodup_catalog_packages (us : List SourceUnit) :
    ((empty.addAll us).index.catalog.packages.map Package.qualifiedName).Nodup := by
  rw [catalog_packageNames]
  exact (isHistory_addAll_empty us).nodup_packages

/-- What is in the catalog of a run was built by one of its units. -/
theorem mem_types_of_mem_catalog {us : List SourceUnit} {t : TypeDecl}
    (h : t ∈ (empty.addAll us).index.catalog.types) : ∃ u ∈ us, t ∈ u.types := by
  have entries : t ∈ (empty.addAll us).index.types.entries.map Prod.snd := h
  rw [addAll_types] at entries
  obtain ⟨e, he, rfl⟩ := List.mem_map.mp entries
  rcases Table.mem_entries_putNewAll he with he | he
  · cases he
  · obtain ⟨t, ht, rfl⟩ := List.mem_map.mp he
    exact List.mem_flatMap.mp ht

theorem catalog_perm {us vs : List SourceUnit} (perm : us.Perm vs) (h : AllCompatible us) :
    (empty.addAll us).index.catalog.types.Perm (empty.addAll vs).index.catalog.types ∧
      (empty.addAll us).index.catalog.packages.Perm
        (empty.addAll vs).index.catalog.packages := by
  have hx := isHistory_addAll_empty us
  have hy := isHistory_addAll_empty vs
  exact ⟨(types_perm hx hy perm h).map _, (packages_perm hx hy perm h).map _⟩

end Index

end ApiDocs
