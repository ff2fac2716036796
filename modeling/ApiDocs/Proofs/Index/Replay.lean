import ApiDocs.Proofs.Index.Order
import ApiDocs.Proofs.Index.Scan

/-! The same units once more. A single unit added twice can change an index, since its comment on a
package may have been replaced in between; a whole run leaves its own history behind, and repeated
it has the same history. -/

namespace ApiDocs

namespace Index

/-- There is only one index with a given history. -/
theorem IsHistory.unique {us : List SourceUnit} {x y : Index} (hx : IsHistory us x)
    (hy : IsHistory us y) : x = y := by
  have packageNames : x.packages.names = y.packages.names :=
    hx.packageNames.trans hy.packageNames.symm
  have comments : ∀ name, x.packages.get? name = y.packages.get? name := by
    intro name
    by_cases known : name ∈ x.packages.names
    · rw [hx.comments name known, hy.comments name (packageNames ▸ known)]
    · rw [Table.get?_eq_none_iff.mpr known, Table.get?_eq_none_iff.mpr (packageNames ▸ known)]
  have packages := Table.eq_of_names hx.nodup_packages packageNames comments
  have types := Table.eq_of_names hx.nodup_types (hx.typeNames.trans hy.typeNames.symm)
    fun name => (hx.types name).trans (hy.types name).symm
  obtain ⟨_, _⟩ := x
  obtain ⟨_, _⟩ := y
  cases packages
  cases types
  rfl

/-! ## What is known already -/

theorem lastComment_append (us vs : List SourceUnit) (name : String) :
    lastComment (us ++ vs) name = (lastComment vs name).or (lastComment us name) := by
  simp only [lastComment, List.filter_append, List.filterMap_append, List.getLast?_append]

/-- Repeating the last units of a run leaves the history as it is. -/
theorem IsHistory.unrepeated {earlier us : List SourceUnit} {x : Index}
    (h : IsHistory (earlier ++ us ++ us) x) : IsHistory (earlier ++ us) x := by
  constructor
  · rw [h.packageNames, List.filterMap_append]
    refine Table.eraseDups_append_of_subset fun name mem => ?_
    rw [List.filterMap_append]
    exact List.mem_append_right _ mem
  · intro name known
    rw [h.comments name known, lastComment_append, lastComment_append, ← Option.or_assoc,
      Option.or_self]
  · rw [h.typeNames, List.flatMap_append, List.map_append]
    refine Table.eraseDups_append_of_subset fun name mem => ?_
    rw [List.flatMap_append, List.map_append]
    exact List.mem_append_right _ mem
  · intro name
    rw [h.types, List.flatMap_append, List.find?_append, List.flatMap_append, List.find?_append,
      Option.or_assoc, Option.or_self]

theorem addAll_again_index (earlier us : List SourceUnit) :
    (((empty.addAll earlier).index.addAll us).index.addAll us).index =
      ((empty.addAll earlier).index.addAll us).index := by
  have once : IsHistory (earlier ++ us) ((empty.addAll earlier).index.addAll us).index := by
    rw [← addAll_append_index]
    exact isHistory_addAll_empty (earlier ++ us)
  have twice : IsHistory (earlier ++ us ++ us)
      (((empty.addAll earlier).index.addAll us).index.addAll us).index := by
    rw [← addAll_append_index, ← addAll_append_index, ← List.append_assoc]
    exact isHistory_addAll_empty (earlier ++ us ++ us)
  exact twice.unrepeated.unique once

/-- Units that are added to the index of any earlier run and then added again leave it alone the
second time, and have the same faults. So has a directory that is scanned twice: the same files are
counted and the same skipped, and the index after the second scan is that after the first. -/
theorem addAll_again (earlier us : List SourceUnit) :
    let x := (empty.addAll earlier).index
    ((x.addAll us).index.addAll us).index = (x.addAll us).index ∧
      ((x.addAll us).index.addAll us).result = (x.addAll us).result ∧
      ∀ (read : UnitReader) (root : String) (l : Option Files.Listing),
        ((x.scan read root l).index.scan read root l).result = (x.scan read root l).result ∧
          ((x.scan read root l).index.scan read root l).index = (x.scan read root l).index ∧
          ((x.scan read root l).index.scan read root l).index.catalog =
            (x.scan read root l).index.catalog := by
  intro x
  refine ⟨addAll_again_index earlier us, ?_, fun read root l => ?_⟩
  · rw [addAll_result, addAll_result]
  · have same : ((x.scan read root l).index.scan read root l).index =
        (x.scan read root l).index := by
      simp only [scan, addFiles_index_of_units]
      exact addAll_again_index earlier _
    refine ⟨?_, same, by rw [same]⟩
    simp only [scan, addFiles_result]

end Index

end ApiDocs
