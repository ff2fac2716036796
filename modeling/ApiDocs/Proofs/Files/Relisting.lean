import ApiDocs.Files.Walk
import ApiDocs.Proofs.Report.Order

/-! A directory may list its entries in any order, and so may each directory below it: as long as
names are distinct, the same files are found in the same order. -/

namespace ApiDocs.Files

/-- No directory, here or below, lists a name twice. -/
inductive DistinctNames : Listing → Prop
  | intro {l : Listing} (own : (l.map Prod.fst).Nodup)
      (below : ∀ name entries, (name, Entry.dir entries) ∈ l → DistinctNames entries) :
      DistinctNames l

/-- The same entries, here and below, listed in another order. -/
inductive Relisted : Listing → Listing → Prop
  | nil : Relisted [] []
  | cons (e : String × Entry) {l l' : Listing} : Relisted l l' → Relisted (e :: l) (e :: l')
  | inside (name : String) {entries entries' l l' : Listing} : Relisted entries entries' →
      Relisted l l' → Relisted ((name, .dir entries) :: l) ((name, .dir entries') :: l')
  | swap (a b : String × Entry) (l : Listing) : Relisted (b :: a :: l) (a :: b :: l)
  | trans {l l' l'' : Listing} : Relisted l l' → Relisted l' l'' → Relisted l l''

theorem distinctNames_nil : DistinctNames [] := ⟨.nil, fun _ _ mem => nomatch mem⟩

theorem distinctNames_cons {e : String × Entry} {l : Listing} :
    DistinctNames (e :: l) ↔
      e.1 ∉ l.map Prod.fst ∧ (∀ entries, e.2 = .dir entries → DistinctNames entries) ∧
        DistinctNames l := by
  obtain ⟨name, entry⟩ := e
  constructor
  · rintro ⟨own, below⟩
    rw [List.map_cons, List.nodup_cons] at own
    refine ⟨own.1, ?_, own.2, fun n entries mem => below n entries (List.mem_cons_of_mem _ mem)⟩
    rintro entries rfl
    exact below name entries List.mem_cons_self
  · rintro ⟨new, inside, own, below⟩
    refine ⟨List.nodup_cons.mpr ⟨new, own⟩, fun n entries mem => ?_⟩
    rcases List.mem_cons.mp mem with same | mem
    · cases same
      exact inside entries rfl
    · exact below n entries mem

namespace Relisted

theorem refl (l : Listing) : Relisted l l := by
  induction l with
  | nil => exact .nil
  | cons e l ih => exact .cons e ih

theorem names {l l' : Listing} (h : Relisted l l') :
    (l.map Prod.fst).Perm (l'.map Prod.fst) := by
  induction h with
  | nil => exact .refl _
  | cons e _ ih => exact ih.cons e.1
  | inside name _ _ _ ih => exact ih.cons name
  | swap a b l => exact .swap a.1 b.1 _
  | trans _ _ ih ih' => exact ih.trans ih'

theorem distinctNames {l l' : Listing} (h : Relisted l l') (distinct : DistinctNames l) :
    DistinctNames l' := by
  induction h with
  | nil => exact distinct
  | cons e rest ih =>
    obtain ⟨new, inside, others⟩ := distinctNames_cons.mp distinct
    exact distinctNames_cons.mpr ⟨fun mem => new (rest.names.mem_iff.mpr mem), inside, ih others⟩
  | inside name _ rest ihInside ih =>
    obtain ⟨new, inside, others⟩ := distinctNames_cons.mp distinct
    refine distinctNames_cons.mpr ⟨fun mem => new (rest.names.mem_iff.mpr mem), ?_, ih others⟩
    rintro entries ⟨⟩
    exact ihInside (inside _ rfl)
  | swap a b l =>
    obtain ⟨own, below⟩ := distinct
    refine ⟨(List.Perm.swap a.1 b.1 _).nodup_iff.mp own, fun name entries mem => ?_⟩
    exact below name entries ((List.Perm.swap a b l).mem_iff.mpr mem)
  | trans _ _ ih ih' => exact ih' (ih distinct)

end Relisted

/-! ## What is found -/

theorem branches_eq_map (directory : String) (l : Listing) :
    branches directory l = l.map fun e => e.2.branch directory e.1 := by
  induction l with
  | nil => rfl
  | cons e rest ih => rw [branches, ih, List.map_cons]

theorem name_branch (directory name : String) (e : Entry) :
    (e.branch directory name).name = name := by
  cases e <;> rfl

theorem names_branches (directory : String) (l : Listing) :
    (branches directory l).map Branch.name = l.map Prod.fst := by
  simp [branches_eq_map, name_branch]

/-- Branches of distinct names have only one order by name. -/
theorem inOrder_eq_of_perm {bs bs' : List Branch} (perm : bs.Perm bs')
    (distinct : (bs.map Branch.name).Nodup) : inOrder bs = inOrder bs' := by
  have sorted : byName bs = byName bs' := Report.sortedBy_eq_of_perm perm distinct
  rw [inOrder, inOrder, sorted]

/-- Branches that are in order by name stay in it. -/
theorem inOrder_of_sorted {bs : List Branch} (sorted : (bs.map Branch.name).Pairwise (· ≤ ·)) :
    inOrder bs = bs.filterMap Branch.own ++ bs.flatMap Branch.below := by
  have same : byName bs = bs :=
    List.mergeSort_of_pairwise ((List.pairwise_map.mp sorted).imp fun le => decide_eq_true le)
  rw [inOrder, same]

theorem Relisted.branches_perm {l l' : Listing} (h : Relisted l l') (distinct : DistinctNames l)
    (directory : String) : (branches directory l).Perm (branches directory l') := by
  induction h generalizing directory with
  | nil => exact .refl _
  | cons e _ ih =>
    obtain ⟨_, _, others⟩ := distinctNames_cons.mp distinct
    exact (ih others directory).cons _
  | @inside name entries entries' l l' _ _ ihInside ih =>
    obtain ⟨_, inside, others⟩ := distinctNames_cons.mp distinct
    obtain ⟨own, below⟩ := inside entries rfl
    let path := Path.below directory name
    have found : inOrder (branches path entries) = inOrder (branches path entries') :=
      inOrder_eq_of_perm (ihInside ⟨own, below⟩ path) (names_branches path entries ▸ own)
    have same : (Entry.dir entries).branch directory name =
        (Entry.dir entries').branch directory name := by
      rw [Entry.branch, Entry.branch, found]
    rw [branches, branches, same]
    exact (ih others directory).cons _
  | swap a b l => exact .swap _ _ _
  | trans first _ ih ih' =>
    exact (ih distinct directory).trans (ih' (first.distinctNames distinct) directory)

theorem walk_eq_of_relisted {l l' : Listing} (h : Relisted l l') (distinct : DistinctNames l)
    (directory : String) : walk directory l = walk directory l' := by
  refine inOrder_eq_of_perm (h.branches_perm distinct directory) ?_
  rw [names_branches]
  obtain ⟨own, _⟩ := distinct
  exact own

end ApiDocs.Files
