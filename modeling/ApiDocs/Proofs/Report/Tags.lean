import ApiDocs.Proofs.Comment.Descriptions
import ApiDocs.Proofs.Report.Records

/-! Which tags of a comment show in the record of a method: the last one for each parameter and the
first one for the returned value, where they say something. A blank one among these hides all others
of its kind. -/

namespace ApiDocs.Report

open Text

/-- The description of a tag that says something. -/
def shown? (t : Option Tag) : Option String := t.bind fun t => unlessBlank t.description

theorem unlessBlank_eq_some_iff {s doc : String} :
    unlessBlank s = some doc ↔ isBlankText s = false ∧ doc = s := by
  unfold unlessBlank
  split
  · next blank => simp [blank]
  · next filled => simp [filled, eq_comm]

theorem shown?_eq_some_iff {found : Option Tag} {doc : String} :
    shown? found = some doc ↔
      ∃ t, found = some t ∧ isBlankText t.description = false ∧ doc = t.description := by
  simp only [shown?, Option.bind_eq_some_iff, unlessBlank_eq_some_iff]

theorem trimmed_eq_empty_iff {s : String} : trimmed s = "" ↔ isBlankText s = true := by
  rw [← String.toList_inj, toList_trimmed, isBlankText, ← trim_eq_nil_iff]
  rfl

theorem doc_compileReturn (m : ApiDocs.Method) (c : Comment) :
    (compileReturn { m with comment := some c }).doc = shown? c.firstReturnTag? := by
  change c.returnDoc?.bind unlessBlank = _
  rw [Comment.returnDoc?_eq, Option.bind_map]
  rfl

/-- What is said of a parameter is trimmed before it is looked at, which makes no difference. -/
theorem doc_compileArgument (c : Comment) (p : Param) :
    (compileArgument c.paramDocs p).doc = (shown? (c.lastParamTag? p.name)).map trimmed := by
  change (c.paramDocs.get? p.name).filter (fun d => !d.isEmpty) = _
  rw [Comment.get?_paramDocs]
  cases c.lastParamTag? p.name with
  | none => rfl
  | some t =>
    rw [Option.map_some, shown?, Option.bind_some, unlessBlank, Option.filter_some]
    by_cases blank : isBlankText t.description = true
    · simp [blank, trimmed_eq_empty_iff.mpr blank]
    · have filled : trimmed t.description ≠ "" := fun empty => blank (trimmed_eq_empty_iff.mp empty)
      simp [blank, filled]

/-! ## Methods -/

/-- A parameter's record, with what the comment says of it. -/
structure ArgumentTagged (c : Comment) (p : Param) (a : Argument) : Prop where
  own : ArgumentOf p a
  doc : ∀ doc, a.doc = some doc ↔ ∃ t, c.lastParamTag? p.name = some t ∧
    isBlankText t.description = false ∧ doc = trimmed t.description

/-- The returned value, with what the comment says of it. -/
structure ReturnTagged (c : Comment) (m : ApiDocs.Method) (r : Return) : Prop where
  type : r.type = m.returnType.text
  doc : ∀ doc, r.doc = some doc ↔ ∃ t, c.firstReturnTag? = some t ∧
    isBlankText t.description = false ∧ doc = t.description

/-- The comments have one body, and agree on the tags that count for the method. -/
structure AgreeFor (m : ApiDocs.Method) (c c' : Comment) : Prop where
  body : c.body = c'.body
  params : ∀ p ∈ m.params, c.lastParamTag? p.name = c'.lastParamTag? p.name
  returns : c.firstReturnTag? = c'.firstReturnTag?

theorem argumentTagged_compileArgument (c : Comment) (p : Param) :
    ArgumentTagged c p (compileArgument c.paramDocs p) := by
  refine ⟨⟨rfl, rfl⟩, fun doc => ?_⟩
  rw [doc_compileArgument, Option.map_eq_some_iff]
  constructor
  · rintro ⟨said, found, rfl⟩
    obtain ⟨t, last, filled, rfl⟩ := shown?_eq_some_iff.mp found
    exact ⟨t, last, filled, rfl⟩
  · rintro ⟨t, last, filled, rfl⟩
    exact ⟨t.description, shown?_eq_some_iff.mpr ⟨t, last, filled, rfl⟩, rfl⟩

theorem returnTagged_compileReturn (c : Comment) (m : ApiDocs.Method) :
    ReturnTagged c m (compileReturn { m with comment := some c }) := by
  refine ⟨rfl, fun doc => ?_⟩
  rw [doc_compileReturn]
  exact shown?_eq_some_iff

theorem compileArgument_congr {c c' : Comment} {p : Param}
    (same : c.lastParamTag? p.name = c'.lastParamTag? p.name) :
    compileArgument c.paramDocs p = compileArgument c'.paramDocs p := by
  have doc : (compileArgument c.paramDocs p).doc = (compileArgument c'.paramDocs p).doc := by
    rw [doc_compileArgument, doc_compileArgument, same]
  exact congrArg (Argument.mk p.name p.type.text) doc

theorem compileMethod_congr {m : ApiDocs.Method} {c c' : Comment} (agree : AgreeFor m c c') :
    compileMethod { m with comment := some c } = compileMethod { m with comment := some c' } := by
  have narrative : narrativeOf (some c) = narrativeOf (some c') := by
    change c.narrative = c'.narrative
    rw [Comment.narrative, agree.body, Comment.narrative]
  have returns : compileReturn { m with comment := some c } =
      compileReturn { m with comment := some c' } := by
    have doc : (compileReturn { m with comment := some c }).doc =
        (compileReturn { m with comment := some c' }).doc := by
      rw [doc_compileReturn, doc_compileReturn, agree.returns]
    exact congrArg (Return.mk m.returnType.text) doc
  have arguments : m.params.map (compileArgument c.paramDocs) =
      m.params.map (compileArgument c'.paramDocs) :=
    List.map_congr_left fun p mem => compileArgument_congr (agree.params p mem)
  simp only [compileMethod, narrative, returns, Option.map_some, Option.getD_some, arguments]

/-- Of a comment's tags a method's record shows the last one for each parameter, trimmed, and the
first one for the returned value as it is, each unless it is blank. Nothing but these and the body
makes a difference to the record. -/
theorem compileMethod_tags (m : ApiDocs.Method) (c : Comment) :
    List.Forall₂ (ArgumentTagged c) m.params
        (compileMethod { m with comment := some c }).arguments ∧
      ReturnTagged c m (compileMethod { m with comment := some c }).returns ∧
      ∀ c', AgreeFor m c c' →
        compileMethod { m with comment := some c } =
          compileMethod { m with comment := some c' } := by
  refine ⟨?_, returnTagged_compileReturn c m, fun c' => compileMethod_congr⟩
  change List.Forall₂ (ArgumentTagged c) m.params (m.params.map (compileArgument c.paramDocs))
  rw [List.forall₂_map_right_iff, List.forall₂_same]
  exact fun p _ => argumentTagged_compileArgument c p

def taggedMethod : ApiDocs.Method where
  name := "m"
  returnType := ⟨.void, "void", none⟩
  params := [⟨"x", ⟨.primitive, "int", none⟩⟩]

def taggedComment : Comment where
  body := ["M."]
  tags := [⟨"param", some "x", ["a"]⟩, ⟨"return", none, ["b"]⟩, ⟨"param", some "x", ["c"]⟩]

/-- The tags that count in another order, and others. -/
def retaggedComment : Comment where
  body := ["M."]
  tags := [⟨"return", none, ["b"]⟩, ⟨"see", none, ["d"]⟩, ⟨"param", some "x", ["c"]⟩,
    ⟨"param", some "y", ["e"]⟩, ⟨"return", none, []⟩]

theorem compileMethod_tags_reordered :
    AgreeFor taggedMethod taggedComment retaggedComment ∧
      compileMethod { taggedMethod with comment := some taggedComment } =
        compileMethod { taggedMethod with comment := some retaggedComment } := by
  have agree : AgreeFor taggedMethod taggedComment retaggedComment := ⟨rfl, by decide, by decide⟩
  exact ⟨agree, (compileMethod_tags taggedMethod taggedComment).2.2 retaggedComment agree⟩

/-- A blank tag hides an earlier one for its parameter, and a later one for the returned value. -/
example :
    compileMethod
        { taggedMethod with
          comment := some
            { tags := [⟨"param", some "x", ["a"]⟩, ⟨"return", none, [" "]⟩, ⟨"return", none, ["b"]⟩,
                ⟨"param", some "x", []⟩] } } =
      { name := "m", doc := "", returns := ⟨"void", none⟩, arguments := [⟨"x", "int", none⟩] } := by
  decide +kernel

end ApiDocs.Report
