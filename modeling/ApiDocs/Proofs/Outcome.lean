import ApiDocs.Progress
import Mathlib.Data.List.Forall2

/-! Work that can fail. Where it is known to succeed, it comes with what is known of its result; such
work can be put in sequence and repeated over a list, and the list then comes out whole. Where it
fails, the first fault counts, and on a list that of the first element that has one. -/

namespace ApiDocs

variable {ε α β : Type}

/-! ## Results -/

/-- There is a result, and it has the property. -/
def Gives (x : Except ε α) (good : α → Prop) : Prop := ∃ a, x = .ok a ∧ good a

namespace Gives

theorem ok {good : α → Prop} {a : α} (h : good a) : Gives (.ok a : Except ε α) good :=
  ⟨a, rfl, h⟩

theorem mono {x : Except ε α} {good better : α → Prop} (h : Gives x better)
    (weaker : ∀ a, better a → good a) : Gives x good := by
  obtain ⟨a, hx, ha⟩ := h
  exact ⟨a, hx, weaker a ha⟩

theorem bind {x : Except ε α} {f : α → Except ε β} {middle : α → Prop} {good : β → Prop}
    (hx : Gives x middle) (hf : ∀ a, middle a → Gives (f a) good) : Gives (x >>= f) good := by
  obtain ⟨a, ha, mid⟩ := hx
  obtain ⟨b, hb, end_⟩ := hf a mid
  exact ⟨b, bind_eq_ok_iff.mpr ⟨a, ha, hb⟩, end_⟩

theorem map {x : Except ε α} {f : α → β} {good : β → Prop}
    (h : Gives x fun a => good (f a)) : Gives (x.map f) good := by
  obtain ⟨a, rfl, ha⟩ := h
  exact ⟨f a, rfl, ha⟩

theorem mapM {f : α → Except ε β} {good : β → Prop} {l : List α}
    (h : ∀ a ∈ l, Gives (f a) good) : Gives (l.mapM f) fun r => ∀ b ∈ r, good b := by
  induction l with
  | nil => exact ⟨[], rfl, by simp⟩
  | cons a rest ih =>
    rw [List.mapM_cons]
    apply bind (h a List.mem_cons_self)
    intro b hb
    apply bind (ih fun c hc => h c (List.mem_cons_of_mem a hc))
    intro bs hbs
    refine ok ?_
    intro c hc
    rcases List.mem_cons.mp hc with rfl | hc
    · exact hb
    · exact hbs c hc

end Gives

/-- Results of work on a list come one by one from its elements. -/
theorem forall₂_of_mapM {f : α → Except ε β} {l : List α} {r : List β} (h : l.mapM f = .ok r) :
    List.Forall₂ (fun a b => f a = .ok b) l r := by
  induction l generalizing r with
  | nil =>
    cases h
    exact .nil
  | cons a rest ih =>
    rw [List.mapM_cons] at h
    obtain ⟨b, first, h⟩ := bind_eq_ok_iff.mp h
    obtain ⟨bs, others, h⟩ := bind_eq_ok_iff.mp h
    cases h
    exact .cons first (ih others)

theorem Progress.exists_of_mem_done {f : α → Except ε β} {l : List α} {b : β}
    (h : b ∈ (run f l).done) : ∃ a ∈ l, f a = .ok b := by
  induction l with
  | nil => cases h
  | cons a rest ih =>
    cases step : f a with
    | error e => simp [run, step] at h
    | ok c =>
      simp only [run, step, List.mem_cons] at h
      rcases h with rfl | h
      · exact ⟨a, List.mem_cons_self, step⟩
      · obtain ⟨a', mem, made⟩ := ih h
        exact ⟨a', List.mem_cons_of_mem a mem, made⟩

theorem exists_of_mem_mapM {f : α → Except ε β} {l : List α} {r : List β} (h : l.mapM f = .ok r)
    {b : β} (mem : b ∈ r) : ∃ a ∈ l, f a = .ok b := by
  rw [← Progress.result_run, Progress.result] at h
  split at h
  · cases h
  · cases h
    exact Progress.exists_of_mem_done mem

theorem exists_ok_of_mem {f : α → Except ε β} {l : List α} {r : List β} (h : l.mapM f = .ok r)
    {a : α} (mem : a ∈ l) : ∃ b ∈ r, f a = .ok b := by
  have related := forall₂_of_mapM h
  clear h
  induction related with
  | nil => cases mem
  | cons head tail ih =>
    rcases List.mem_cons.mp mem with rfl | mem
    · exact ⟨_, List.mem_cons_self, head⟩
    · obtain ⟨b, hb, made⟩ := ih mem
      exact ⟨b, List.mem_cons_of_mem _ hb, made⟩

theorem Progress.mapM_of_fault_none {f : α → Except ε β} {l : List α}
    (h : (run f l).fault = none) : l.mapM f = .ok (run f l).done := by
  rw [← result_run, result, h]

theorem Progress.run_of_gives {f : α → Except ε β} {good : β → Prop} {l : List α}
    (h : ∀ a ∈ l, Gives (f a) good) :
    (run f l).fault = none ∧ ∀ b ∈ (run f l).done, good b := by
  induction l with
  | nil => exact ⟨rfl, by simp [run]⟩
  | cons a rest ih =>
    obtain ⟨b, hb, good_b⟩ := h a List.mem_cons_self
    obtain ⟨none, all⟩ := ih fun c hc => h c (List.mem_cons_of_mem a hc)
    simp only [run, hb, none, List.mem_cons, forall_eq_or_imp, true_and]
    exact ⟨good_b, all⟩

/-! ## Faults -/

def fault? : Except ε α → Option ε
  | .error e => some e
  | .ok _ => none

theorem fault?_eq_some_iff {x : Except ε α} {e : ε} : fault? x = some e ↔ x = .error e := by
  cases x <;> simp [fault?]

/-- What is done after the first step has the same fault, whatever the first step gave. -/
theorem fault?_bind {x : Except ε α} {f : α → Except ε β} {o : Option ε}
    (rest : ∀ a, fault? (f a) = o) : fault? (x >>= f) = (fault? x).or o := by
  cases x with
  | error e => rfl
  | ok a => exact rest a

theorem fault?_map (x : Except ε α) (f : α → β) : fault? (x.map f) = fault? x := by
  cases x <;> rfl

theorem fault?_mapM (f : α → Except ε β) (l : List α) :
    fault? (l.mapM f) = l.findSome? fun a => fault? (f a) := by
  induction l with
  | nil => rfl
  | cons a rest ih =>
    have others : ∀ b, fault? (rest.mapM f >>= fun bs => pure (b :: bs)) =
        rest.findSome? fun a => fault? (f a) := fun b => by
      rw [fault?_bind (o := none) fun _ => rfl, ih, Option.or_none]
    rw [List.mapM_cons, fault?_bind others, List.findSome?_cons]
    cases fault? (f a) <;> rfl

end ApiDocs
