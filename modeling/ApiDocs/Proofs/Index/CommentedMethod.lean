import ApiDocs.Proofs.Index.Commented

/-! Comments inside the signature of a method: around and in its parameters, its type parameters and
its annotations. Where no type and no parameter of variable arity picks a comment, the method is read
as it was, or fails as it did. -/

namespace ApiDocs.Index

open Node Text

/-! ## Methods with comments put in -/

/-- The type and the name of a method are nodes like those of a parameter; its other parts are
lists: of type parameters, of annotations, of parameters. -/
def CommentedPart (may : Places) (s s' : Source) (c c' : Node) : Prop :=
  if c.field = some "type" ∨ c.field = some "name" then Commented may s s' c c'
  else Grown may (Grown may (Commented may s s')) c c'

def CommentedMethod (may : Places) (s s' : Source) : Node → Node → Prop :=
  Grown may (CommentedPart may s s')

section Shared

variable {may : Places} {s s' : Source} {n n' : Node}

/-- A type is in particular a list with comments put in. -/
theorem Commented.list (h : Commented may s s' n n') :
    Grown may (Grown may (Commented may s s')) n n' :=
  h.grown.mono fun _ _ _ related => related.grown

theorem Commented.part (h : Commented may s s' n n') : CommentedPart may s s' n n' := by
  unfold CommentedPart
  split
  · exact h
  · exact h.list

namespace CommentedPart

theorem list (h : CommentedPart may s s' n n') :
    Grown may (Grown may (Commented may s s')) n n' := by
  unfold CommentedPart at h
  split at h
  · exact h.list
  · exact h

theorem commented (h : CommentedPart may s s' n n')
    (field : n.field = some "type" ∨ n.field = some "name") : Commented may s s' n n' := by
  rwa [CommentedPart, if_pos field] at h

end CommentedPart

theorem CommentedMethod.lists (h : CommentedMethod may s s' n n') :
    Grown may (Grown may (Grown may (Commented may s s'))) n n' :=
  h.mono fun _ _ _ related => related.list

end Shared

/-! ## Parameters, annotations, methods -/

section Signatures

variable {scope : Scope} {s' : Source} {vars : List String} {n n' : Node}

/-- The same child is looked into, or none is there in either tree. -/
theorem childOr_bind_rel {R : Node → Node → Prop} {α : Type} {field : String}
    {k k' : Node → Except Fault α} (kind : n'.kind = n.kind)
    (found : Option.Rel R (n.childByField? field) (n'.childByField? field))
    (agree : ∀ c c', c.field = some field → R c c' → k' c' = k c) :
    (childOr n' field >>= k') = (childOr n field >>= k) := by
  have known : ∀ c ∈ n.childByField? field, c.field = some field :=
    fun c hc => by simpa using List.find?_some hc
  unfold childOr
  rw [kind]
  generalize n.childByField? field = o, n'.childByField? field = o' at found known ⊢
  cases found with
  | none => rfl
  | some related => exact agree _ _ (known _ rfl) related

theorem childOr_bind_grown {may : Places} {R : Node → Node → Prop} {α : Type}
    (h : Grown may R n n') (same : ∀ c c', R c c' → c'.field = c.field) {field : String}
    {k k' : Node → Except Fault α} (agree : ∀ c c', c.field = some field → R c c' → k' c' = k c) :
    (childOr n' field >>= k') = (childOr n field >>= k) :=
  childOr_bind_rel h.kind (h.childByField? same field) agree

theorem textOfName_rel {R : Node → Node → Prop} {s : Source} (kind : n'.kind = n.kind)
    (found : Option.Rel R (n.childByField? "name") (n'.childByField? "name"))
    (text : ∀ c c', c.field = some "name" → R c c' → c'.text s' = c.text s) :
    textOfField s' n' "name" = textOfField s n "name" := by
  have read : ∀ (s : Source) (n : Node), textOfField s n "name" =
      childOr n "name" >>= fun c => .ok (c.text s) := fun s n => by
    rw [textOfField]
    cases childOr n "name" <;> rfl
  rw [read, read]
  exact childOr_bind_rel kind found fun c c' known related => by rw [text c c' known related]

theorem textOfName_grown {may : Places} {R : Node → Node → Prop} {s : Source}
    (h : Grown may R n n') (same : ∀ c c', R c c' → c'.field = c.field)
    (text : ∀ c c', c.field = some "name" → R c c' → c'.text s' = c.text s) :
    textOfField s' n' "name" = textOfField s n "name" :=
  textOfName_rel h.kind (h.childByField? same "name") text

theorem withDimensions_eq (s : Source) (r : TypeRef) (o : Option Node) : withDimensions s r o =
    ((o.map (dimensionsText s)).map fun text => ⟨.array, r.text ++ text, none⟩).getD r := by
  cases o <;> rfl

theorem formalParameter_commented (h : Grown Unseen (Commented Unseen scope.source s') n n') :
    formalParameter (scope.over s') vars n' = formalParameter scope vars n := by
  have fields : ∀ c c', Commented Unseen scope.source s' c c' → c'.field = c.field :=
    fun _ _ related => related.grown.field
  have name := textOfName_grown h fields fun _ _ known related =>
    related.name known
  have dims := dimensionsText_grown h fields fun c c' known related =>
    related.text (.inr (.inr known))
  refine childOr_bind_grown h fields fun c c' _ related => ?_
  rw [typeRef_commented related]
  refine bind_congr fun type => ?_
  rw [Scope.over_source, name, withDimensions_eq, withDimensions_eq, dims]

theorem spreadParameter_commented (h : Grown Unseen (Commented Unseen scope.source s') n n')
    (kind : n.kind = "spread_parameter") :
    spreadParameter (scope.over s') vars n' = spreadParameter scope vars n := by
  have type := spreadType?_unseen h (fun c c' related => by
    simp only [isSpreadType, related.grown.named, related.grown.kind]) kind
  have declarator := h.childOfKind? (fun _ _ related => related.grown.kind)
    ["variable_declarator"] (by decide) (by decide)
  unfold spreadParameter
  rw [h.kind]
  generalize spreadType? n = o, spreadType? n' = o' at type ⊢
  cases type with
  | none => rfl
  | some related =>
    simp only [typeRef_commented related]
    refine bind_congr fun element => ?_
    generalize n.childOfKind? ["variable_declarator"] = o,
      n'.childOfKind? ["variable_declarator"] = o' at declarator ⊢
    cases declarator with
    | none => rfl
    | some inside =>
      have name := textOfName_grown inside.grown
        (fun _ _ related => related.grown.field) fun _ _ known related => related.name known
      simp only [Scope.over_source, name]

theorem parameter?_commented (h : Grown Unseen (Commented Unseen scope.source s') n n') :
    parameter? (scope.over s') vars n' = parameter? scope vars n := by
  unfold parameter?
  rw [h.kind]
  split
  · rw [formalParameter_commented h]
  split
  · next kind => rw [spreadParameter_commented h kind]
  · rfl

theorem parameter?_of_isRemark {c : Node} (h : c.IsRemark) :
    parameter? (scope.over s') vars c = .ok none := by
  rcases h.1 with kind | kind <;> simp [parameter?, kind]

theorem present_cons {α : Type} (f : Node → Except Fault (Option α)) (n : Node) (l : List Node) :
    ((n :: l).mapM f).map (fun found => found.filterMap id) = (f n >>= fun first =>
      ((l.mapM f).map fun found => found.filterMap id).map fun others =>
        first.toList ++ others) := by
  rw [List.mapM_cons]
  cases f n with
  | error => rfl
  | ok first =>
    cases l.mapM f with
    | error => rfl
    | ok others => cases first <;> rfl

/-- Comments among the parameters are none. -/
theorem parameters_interspersed {may : Places} {R : Node → Node → Prop} {before l l' : List Node}
    {kind : String} (h : Interspersed may R before kind l l')
    (named : ∀ c c', R c c' → c'.named = c.named)
    (read : ∀ c c', R c c' → parameter? (scope.over s') vars c' = parameter? scope vars c) :
    ((l'.filter Node.named).mapM (parameter? (scope.over s') vars)).map
        (fun ps => ps.filterMap id) =
      ((l.filter Node.named).mapM (parameter? scope vars)).map fun ps => ps.filterMap id := by
  induction h with
  | nil => rfl
  | @keep _ _ n n' _ _ related _ ih =>
    rw [List.filter_cons, List.filter_cons, named n n' related]
    split
    · rw [present_cons, present_cons, read n n' related, ih]
    · exact ih
  | remark isRemark _ _ ih =>
    rw [List.filter_cons]
    split
    · rw [present_cons, parameter?_of_isRemark isRemark, ih]
      exact congrFun Except.map_id _
    · exact ih

theorem parameters_of_rel {may : Places} {R : Node → Node → Prop}
    (list : Option.Rel (Grown may R) (n.childByField? "parameters")
      (n'.childByField? "parameters"))
    (named : ∀ c c', R c c' → c'.named = c.named)
    (read : ∀ c c', R c c' → parameter? (scope.over s') vars c' = parameter? scope vars c) :
    parameters (scope.over s') vars n' = parameters scope vars n := by
  unfold parameters
  generalize n.childByField? "parameters" = o, n'.childByField? "parameters" = o' at list ⊢
  cases list with
  | none => rfl
  | some related => exact parameters_interspersed related.children named read

theorem parameters_commented (h : CommentedMethod Unseen scope.source s' n n') :
    parameters (scope.over s') vars n' = parameters scope vars n := by
  have list := h.lists.childByField? (fun _ _ related => related.field) "parameters"
  refine parameters_of_rel list (fun _ _ inner => inner.named) fun _ _ inner => ?_
  exact parameter?_commented inner

theorem typeParameters_of_rel {may : Places} {s : Source}
    (list : Option.Rel (Grown may (Grown may (Commented may s s')))
      (n.childByField? "type_parameters") (n'.childByField? "type_parameters")) :
    typeParameters s' n' = typeParameters s n := by
  unfold typeParameters
  generalize n.childByField? "type_parameters" = o,
    n'.childByField? "type_parameters" = o' at list ⊢
  cases list with
  | none => rfl
  | some related =>
    refine filterMap_eq_of_forall₂ (related.childrenOfKind (fun _ _ inner => inner.kind) _
      (by decide) (by decide)) fun p p' inner => ?_
    refine map_eq_of_rel (inner.childOfKind? (fun _ _ name => name.grown.kind) _ (by decide)
      (by decide)) fun c found c' name => ?_
    have kind : c.kind ∈ ["type_identifier", "identifier"] := by simpa using List.find?_some found
    refine name.text (.inl ?_)
    simp only [List.mem_cons, List.not_mem_nil, or_false] at kind
    rcases kind with kind | kind <;> simp [kind, composedKinds]

theorem typeParameters_commented {may : Places} {s : Source} (h : CommentedMethod may s s' n n') :
    typeParameters s' n' = typeParameters s n :=
  typeParameters_of_rel (h.lists.childByField? (fun _ _ related => related.field) _)

theorem annotationName_commented {may : Places}
    (h : Grown may (Commented may scope.source s') n n') :
    annotationName (scope.over s') n' = annotationName scope n := by
  refine childOr_bind_grown h (fun _ _ related => related.grown.field) fun c c' known related => ?_
  rw [Scope.over_source, related.name known, related.grown.kind, Scope.over_resolve]

theorem annotations_of_rel {may : Places}
    (modifiers : Option.Rel (Grown may (Grown may (Commented may scope.source s')))
      (n.childOfKind? ["modifiers"]) (n'.childOfKind? ["modifiers"])) :
    annotations (scope.over s') n' = annotations scope n := by
  unfold annotations
  generalize n.childOfKind? ["modifiers"] = o, n'.childOfKind? ["modifiers"] = o' at modifiers ⊢
  cases modifiers with
  | none => rfl
  | some related =>
    exact mapM_eq_of_forall₂ (related.childrenOfKind (fun _ _ inner => inner.kind) _
      (by decide) (by decide)) fun _ _ inner => annotationName_commented inner

theorem annotations_commented {may : Places} (h : CommentedMethod may scope.source s' n n') :
    annotations (scope.over s') n' = annotations scope n :=
  annotations_of_rel (h.lists.childOfKind? (fun _ _ related => related.kind) _ (by decide)
    (by decide))

/-- A comment changes nothing in the signature of a method, unless it is picked in another node's
stead. The comment before the method is read off the text itself. -/
theorem method_commented {p p' : Placed}
    (h : CommentedMethod Unseen scope.source s' p.node p'.node) :
    method (scope.over s') vars p' =
      (method scope vars p).map fun m => { m with comment := commentOf s' p' } := by
  have fields : ∀ c c', CommentedPart Unseen scope.source s' c c' → c'.field = c.field :=
    fun _ _ related => related.list.field
  have name := textOfName_grown h fields fun _ _ known related =>
    (related.commented (.inr known)).name known
  change _ = _ <$> _
  simp only [method, map_bind, Scope.over_source, typeParameters_commented h]
  refine childOr_bind_grown h fields fun c c' known related => ?_
  rw [typeRef_commented (related.commented (.inl known)), parameters_commented h, name,
    annotations_commented h]
  rfl

end Signatures

/-! ## A method and comments in it -/

def remarkAt (start : Nat) : Node := .mk "block_comment" start (start + 4) true none []

def leaf (kind : String) (field : Option String) (start : Nat) : Node :=
  .mk kind start (start + 1) true field []

def genericReturn (stop : Nat) (rest : List Node) : Node :=
  .mk "generic_type" 0 stop true (some "type") (leaf "type_identifier" none 0 :: rest)

def bracketed (start stop : Nat) (l : List Node) : Node :=
  .mk "type_arguments" start stop true none l

def oneParameter (start : Nat) : Node :=
  .mk "formal_parameter" start (start + 3) true none
    [leaf "type_identifier" (some "type") start, leaf "identifier" (some "name") (start + 2)]

def genericMethod (stop : Nat) (type : Node) (name : Nat) (params : List Node) : Placed :=
  ⟨.mk "method_declaration" 0 stop true none
      [type, leaf "identifier" (some "name") name,
       .mk "formal_parameters" (name + 1) stop true (some "parameters") params], []⟩

def plainSource : Source := Source.ofText "C<B>m(B x)"

def plainScope : Scope := ⟨plainSource, .empty, .empty⟩

def plainMethod : Placed :=
  genericMethod 10 (genericReturn 4 [bracketed 1 4 [leaf "type_identifier" none 2]]) 4
    [oneParameter 6]

/-- One comment stands behind the generic type's own name and one before the parameter. -/
def unseenSource : Source := Source.ofText "C/**/<B>m(/**/B x)"

def unseenMethod : Placed :=
  genericMethod 18 (genericReturn 8 [remarkAt 1, bracketed 5 8 [leaf "type_identifier" none 6]]) 8
    [remarkAt 10, oneParameter 14]

/-- A comment stands among the type arguments. -/
def seenSource : Source := Source.ofText "C</**/B>m(B x)"

def seenMethod : Placed :=
  genericMethod 14 (genericReturn 8 [bracketed 1 8 [remarkAt 2, leaf "type_identifier" none 6]]) 8
    [oneParameter 10]

theorem isRemark_remarkAt (start : Nat) : (remarkAt start).IsRemark := ⟨.inl rfl, rfl⟩

section Examples

variable {may : Places} {s s' : Source}

theorem leaf_commented {kind : String} {field : Option String} {start start' : Nat}
    (text : s'.slice start' (start' + 1) = s.slice start (start + 1)) :
    Commented may s s' (leaf kind field start) (leaf kind field start') :=
  .mk (fun _ => text) .nil

theorem oneParameter_commented {start start' : Nat}
    (type : s'.slice start' (start' + 1) = s.slice start (start + 1))
    (name : s'.slice (start' + 2) (start' + 3) = s.slice (start + 2) (start + 3)) :
    Grown may (Commented may s s') (oneParameter start) (oneParameter start') :=
  ⟨rfl, rfl, rfl, .keep (leaf_commented type) (.keep (leaf_commented name) .nil)⟩

theorem genericMethod_commented {stop stop' name name' : Nat} {type type' : Node}
    {params params' : List Node} (typed : Commented may s s' type type')
    (named : s'.slice name' (name' + 1) = s.slice name (name + 1))
    (list : Interspersed may (Grown may (Commented may s s')) [] "formal_parameters" params
      params') :
    CommentedMethod may s s' (genericMethod stop type name params).node
      (genericMethod stop' type' name' params').node := by
  refine ⟨rfl, rfl, rfl, .keep typed.part (.keep (leaf_commented named).part (.keep ?_ .nil))⟩
  rw [CommentedPart, if_neg (by simp [Node.field])]
  exact ⟨rfl, rfl, rfl, list⟩

end Examples

theorem unseenMethod_commented :
    CommentedMethod Unseen plainSource unseenSource plainMethod.node unseenMethod.node := by
  have args : Commented Unseen plainSource unseenSource
      (bracketed 1 4 [leaf "type_identifier" none 2])
      (bracketed 5 8 [leaf "type_identifier" none 6]) :=
    .mk (by decide) (.keep (leaf_commented (by decide +kernel)) .nil)
  have type : Commented Unseen plainSource unseenSource
      (genericReturn 4 [bracketed 1 4 [leaf "type_identifier" none 2]])
      (genericReturn 8 [remarkAt 1, bracketed 5 8 [leaf "type_identifier" none 6]]) :=
    .mk (by decide) (.keep (leaf_commented (by decide +kernel))
      (.remark (isRemark_remarkAt 1) (by decide) (.keep args .nil)))
  refine genericMethod_commented type (by decide +kernel) ?_
  exact .remark (isRemark_remarkAt 10) (by decide)
    (.keep (oneParameter_commented (by decide +kernel) (by decide +kernel)) .nil)

theorem seenMethod_commented :
    CommentedMethod anywhere plainSource seenSource plainMethod.node seenMethod.node := by
  have args : Commented anywhere plainSource seenSource
      (bracketed 1 4 [leaf "type_identifier" none 2])
      (bracketed 1 8 [remarkAt 2, leaf "type_identifier" none 6]) :=
    .mk (by decide) (.remark (isRemark_remarkAt 2) trivial
      (.keep (leaf_commented (by decide +kernel)) .nil))
  have type : Commented anywhere plainSource seenSource
      (genericReturn 4 [bracketed 1 4 [leaf "type_identifier" none 2]])
      (genericReturn 8 [bracketed 1 8 [remarkAt 2, leaf "type_identifier" none 6]]) :=
    .mk (by decide) (.keep (leaf_commented (by decide +kernel)) (.keep args .nil))
  exact genericMethod_commented type (by decide +kernel)
    (.keep (oneParameter_commented (by decide +kernel) (by decide +kernel)) .nil)

theorem method_commented_generic :
    CommentedMethod Unseen plainSource unseenSource plainMethod.node unseenMethod.node ∧
      method (plainScope.over unseenSource) [] unseenMethod =
        (method plainScope [] plainMethod).map
          (fun m => { m with comment := commentOf unseenSource unseenMethod }) ∧
      (method (plainScope.over unseenSource) [] unseenMethod).map
        (fun m => (m.returnType, m.params)) =
          .ok (⟨.declared, "C<B>", some "C"⟩, [⟨"x", ⟨.declared, "B", some "B"⟩⟩]) :=
  ⟨unseenMethod_commented, method_commented unseenMethod_commented, by decide +kernel⟩

/-- A comment among the type arguments is one of them. -/
theorem argument_comment_seen :
    WellFormed plainSource plainMethod.node ∧ WellFormed seenSource seenMethod.node ∧
      CommentedMethod anywhere plainSource seenSource plainMethod.node seenMethod.node ∧
      (method plainScope [] plainMethod).map Method.returnType =
        .ok ⟨.declared, "C<B>", some "C"⟩ ∧
      (method (plainScope.over seenSource) [] seenMethod).map
        Method.returnType = .ok ⟨.declared, "C</**/,B>", some "C"⟩ :=
  ⟨by decide +kernel, by decide +kernel, seenMethod_commented, by decide +kernel,
    by decide +kernel⟩

end ApiDocs.Index
