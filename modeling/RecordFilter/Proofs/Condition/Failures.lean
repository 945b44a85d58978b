import RecordFilter.Condition.Compile

/-!
# How filters fail

A filter that does not compile fails with an error about itself, which names its field and repeats
what it asks for. Such an error blames the request, and it is never about a path.
-/

namespace RecordFilter

/-- Whether the error is about a path that leads nowhere or is too deep. -/
def FilterError.isPathFailure : FilterError → Bool
  | unknownField .. | fieldTooDeep .. => true
  | _ => false

namespace FieldFilter

/-- The errors that are about the filter. -/
inductive Fails (f : FieldFilter) : FilterError → Prop
  | invalidRange (low high : Scalar) : Fails f (.invalidRange f.field low.asText high.asText)
  | parse (v : Scalar) (cause : ParseFailure) :
      Fails f (.parse f.field f.dataType v.asText cause)
  | unsupportedMode : Fails f (.unsupportedMode f.field f.mode f.dataType)
  | typeMismatch (kind : ColumnKind) : Fails f (.typeMismatch f.field f.dataType kind)
  | invalidValue (cause : ShapeFailure) : Fails f (.invalidValue f.field f.mode cause)

variable {f : FieldFilter} {e : FilterError}

theorem Fails.isValidation (h : f.Fails e) : e.isValidation = true := by
  cases h <;> rfl

theorem Fails.isPathFailure (h : f.Fails e) : e.isPathFailure = false := by
  cases h <;> rfl

section
variable {α β : Type}

/-- If the step fails, then with an error about the filter. -/
def Blames (f : FieldFilter) (x : Except FilterError α) : Prop := ∀ e, x = .error e → f.Fails e

theorem blames_pure (a : α) : f.Blames (pure a) := nofun

theorem Blames.bind {x : Except FilterError α} {g : α → Except FilterError β} (hx : f.Blames x)
    (hg : ∀ a, f.Blames (g a)) : f.Blames (x >>= g) := by
  intro e h
  cases x with
  | error e' =>
    cases h
    exact hx e rfl
  | ok a => exact hg a e h

theorem blames_requireScalar : f.Blames f.requireScalar := by
  intro e h
  rw [requireScalar] at h
  split at h <;> cases h
  · exact .invalidValue _
  · exact .invalidValue _

theorem blames_requireRange : f.Blames f.requireRange := by
  intro e h
  rw [requireRange] at h
  split at h <;> cases h
  · exact .invalidValue _
  · exact .invalidValue _

theorem blames_reading (v : Scalar) (r : Except ParseFailure α) : f.Blames (f.reading v r) := by
  intro e h
  cases r <;> cases h
  exact .parse v _

theorem blames_supported (r : Option α) : f.Blames (f.supported r) := by
  intro e h
  cases r <;> cases h
  exact .unsupportedMode

theorem blames_emptyRange (low high : Scalar) :
    f.Blames (f.emptyRange low high : Except FilterError α) := by
  intro e h
  cases h
  exact .invalidRange low high

end

theorem blames_compileText : f.Blames f.compileText :=
  blames_requireScalar.bind fun _ => (blames_supported _).bind fun _ => blames_pure _

theorem blames_compileBool : f.Blames f.compileBool :=
  blames_requireScalar.bind fun _ => (blames_reading _ _).bind fun _ => blames_pure _

theorem blames_compileNumber : f.Blames f.compileNumber := by
  unfold compileNumber
  split
  · refine blames_requireRange.bind fun ends => ?_
    refine (blames_reading _ _).bind fun lower => (blames_reading _ _).bind fun upper => ?_
    split
    · exact blames_emptyRange _ _
    · exact blames_pure _
  · refine blames_requireScalar.bind fun v => (blames_reading _ _).bind fun n => ?_
    exact (blames_supported _).bind fun op => blames_pure _

theorem blames_compileTemporal : f.Blames f.compileTemporal := by
  unfold compileTemporal
  split
  · refine blames_requireRange.bind fun ends => ?_
    refine (blames_reading _ _).bind fun first => (blames_reading _ _).bind fun last => ?_
    split
    · exact blames_emptyRange _ _
    · exact blames_pure _
  · refine blames_requireScalar.bind fun v => (blames_reading _ _).bind fun span => ?_
    exact blames_supported _

theorem blames_compileValue : f.Blames f.compileValue := by
  unfold compileValue
  split
  · exact blames_compileText
  · exact blames_compileNumber
  · exact blames_compileBool
  · exact blames_compileTemporal
  · exact blames_compileTemporal

theorem blames_compile (kind : ColumnKind) : f.Blames (f.compile kind) := by
  unfold compile
  split
  · intro e h
    cases h
    exact .unsupportedMode
  · split
    · intro e h
      cases h
      exact .typeMismatch kind
    · split
      · exact blames_pure _
      · exact blames_compileValue.bind fun condition => blames_pure _

end FieldFilter

end RecordFilter
