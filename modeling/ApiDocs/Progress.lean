/-! Work on a list that stops at the first fault and keeps what was done before it. -/

namespace ApiDocs

/-- Of two steps both must succeed, the second on what the first gave. -/
theorem bind_eq_ok_iff {ε α β : Type} {x : Except ε α} {f : α → Except ε β} {b : β} :
    x >>= f = .ok b ↔ ∃ a, x = .ok a ∧ f a = .ok b := by
  cases x with
  | error e => simp [bind, Except.bind]
  | ok a => simp [bind, Except.bind]

structure Progress (ε β : Type) where
  done : List β
  fault : Option ε

namespace Progress

variable {α β ε : Type}

def run (f : α → Except ε β) : List α → Progress ε β
  | [] => ⟨[], none⟩
  | a :: rest =>
    match f a with
    | .error e => ⟨[], some e⟩
    | .ok b => ⟨b :: (run f rest).done, (run f rest).fault⟩

def result (p : Progress ε β) : Except ε (List β) :=
  match p.fault with
  | some e => .error e
  | none => .ok p.done

/-- What was done counts only if all of it was. -/
theorem result_run (f : α → Except ε β) (l : List α) : (run f l).result = l.mapM f := by
  induction l with
  | nil => rfl
  | cons a l ih =>
    rw [List.mapM_cons, ← ih]
    cases h : f a with
    | error e => simp [run, h, result, bind, Except.bind]
    | ok b =>
      cases hf : (run f l).fault <;>
        simp [run, h, hf, result, bind, Except.bind, pure, Except.pure]

end Progress

end ApiDocs
