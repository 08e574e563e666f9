import DoubleEntry.Param.Definition
import DoubleEntry.Proofs.Results
import DoubleEntry.Proofs.Tables

/-!
# Binding parameters

`bind` looks at what is supplied and at the defaults, and converts every value to its declared type.
It makes one row for each declaration and a table of the rows (`bind_eq`), so what is known of lists
of results and of tables is known of it.

What comes out is read by declared names only, so all that evaluation needs to know of it is that it
`Matches` the declarations: every declared name has a value of its declared type, and no other name
has one. That holds whatever was supplied, as long as no name is declared twice (`matches_of_bind`).

Main statement: `bind_complete`, for declarations that were accepted and have distinct names. It
says when binding succeeds, what is bound and what is ignored then, and why it fails otherwise. A
default is never why: it was checked to be assignable to the declared type, and what is assignable
can be converted (`coerceTo_of_assignableTo`).
-/

namespace DoubleEntry

open OrdMap

/-! ## Converted values have the declared type -/

theorem ParamValue.dataType_of_parse? {text : String} {t : DataType} {w : ParamValue}
    (h : parse? text t = some w) : w.dataType = t := by
  unfold parse? at h
  cases t with
  | uuid =>
    obtain ⟨u, -, rfl⟩ := Option.map_eq_some_iff.mp h
    rfl
  | decimal =>
    obtain ⟨d, -, rfl⟩ := Option.map_eq_some_iff.mp h
    rfl
  | integer =>
    obtain ⟨i, -, rfl⟩ := Option.map_eq_some_iff.mp h
    rfl
  | date =>
    obtain ⟨d, -, rfl⟩ := Option.map_eq_some_iff.mp h
    rfl
  | timestamp =>
    obtain ⟨i, -, rfl⟩ := Option.map_eq_some_iff.mp h
    rfl
  | string => cases h
  | boolean => cases h
  | json => cases h

theorem ParamValue.dataType_of_coerceTo {v w : ParamValue} {t : DataType}
    (h : v.coerceTo t = some w) : w.dataType = t := by
  unfold coerceTo at h
  split at h
  · next hsame =>
    cases h
    exact hsame
  · split at h
    · cases h
      rfl
    · exact dataType_of_parse? h
    · cases h

/-- Values that could fill a slot can also be converted to its type. -/
theorem ParamValue.coerceTo_of_assignableTo {v : ParamValue} {t : DataType}
    (h : v.dataType.assignableTo t = true) : ∃ w, v.coerceTo t = some w := by
  unfold coerceTo
  split
  · exact ⟨v, rfl⟩
  · next hne =>
    simp only [DataType.assignableTo, Bool.or_eq_true, Bool.and_eq_true, beq_iff_eq] at h
    obtain ⟨hinteger, rfl⟩ := h.resolve_left hne
    cases v <;> cases hinteger
    exact ⟨_, rfl⟩

/-! ## What a declaration has been checked for -/

theorem checkDefault_eq_ok {name source : String} {t : DataType} {e : Expr}
    (h : checkDefault name t source = .ok e) :
    Expr.ofString source = .ok e ∧ ∃ v, e = .literal v ∧ v.dataType.assignableTo t = true := by
  obtain ⟨e', hread, h⟩ := bind_eq_ok.mp h
  cases e' with
  | param _ => cases h
  | literal v =>
    dsimp only at h
    split at h
    · next hassignable =>
      cases h
      exact ⟨hread, v, rfl, hassignable⟩
    · cases h

theorem NewParamDefinition.define_eq_ok {new : NewParamDefinition} {d : ParamDefinition}
    (h : new.define = .ok d) :
    Text.isIdentifier new.name.toList = true ∧ d.name = new.name ∧ d.dataType = new.dataType ∧
      Option.Rel (fun source e => checkDefault new.name new.dataType source = .ok e)
        new.default d.default := by
  unfold define at h
  split at h
  · cases h
  · next hname =>
    obtain ⟨default, hdefault, h⟩ := bind_eq_ok.mp h
    cases h
    exact ⟨by simpa using hname, rfl, rfl, option_mapM_eq_ok.mp hdefault⟩

/-- A declaration that was accepted. -/
def ParamDefinition.Accepted (d : ParamDefinition) : Prop :=
  ∃ new : NewParamDefinition, new.define = .ok d

/-- A default is a literal that can be converted. -/
theorem ParamDefinition.Accepted.exists_literal {d : ParamDefinition} (h : d.Accepted) {e : Expr}
    (he : d.default = some e) :
    ∃ v w, e = .literal v ∧ v.coerceTo d.dataType = some w := by
  obtain ⟨new, hnew⟩ := h
  obtain ⟨-, -, htype, hdefault⟩ := new.define_eq_ok hnew
  rw [he] at hdefault
  generalize new.default = source at hdefault
  cases hdefault with
  | some hsource =>
    obtain ⟨-, v, rfl, hassignable⟩ := checkDefault_eq_ok hsource
    rw [← htype] at hassignable
    obtain ⟨w, hw⟩ := ParamValue.coerceTo_of_assignableTo hassignable
    exact ⟨v, w, rfl, hw⟩

/-! ## The value of a declared parameter -/

namespace ParamDefinition

variable {d : ParamDefinition} {v w : ParamValue} {supplied : Params}

theorem dataType_of_convert (h : d.convert v = .ok w) : w.dataType = d.dataType := by
  unfold convert at h
  split at h
  · next hw =>
    cases h
    exact ParamValue.dataType_of_coerceTo hw
  · cases h

/-- Supplied or by default, a value is converted. -/
theorem dataType_of_valueIn (h : d.valueIn supplied = .ok w) : w.dataType = d.dataType := by
  unfold valueIn at h
  split at h
  · exact dataType_of_convert h
  · split at h
    · exact dataType_of_convert h
    · cases h

/-- A value of the declared type stays as it is. -/
theorem valueIn_of_dataType (hv : supplied.get? d.name = some v) (htype : v.dataType = d.dataType) :
    d.valueIn supplied = .ok v := by
  have hsame : v.coerceTo d.dataType = some v := if_pos htype
  rw [valueIn, hv]
  dsimp only
  rw [convert, hsame]

/-- A value is supplied that can be converted, or none is and there is a default. -/
def Bindable (d : ParamDefinition) (supplied : Params) : Prop :=
  (∃ v w, supplied.get? d.name = some v ∧ v.coerceTo d.dataType = some w) ∨
    (supplied.get? d.name = none ∧ ∃ e, d.default = some e)

/-- The value to be bound: what is supplied, else the default, converted. -/
inductive Gets (d : ParamDefinition) (supplied : Params) : ParamValue → Prop
  | supplied {v w : ParamValue} (hv : supplied.get? d.name = some v)
      (hw : v.coerceTo d.dataType = some w) : Gets d supplied w
  | default {v w : ParamValue} (habsent : supplied.get? d.name = none)
      (hdefault : d.default = some (.literal v)) (hw : v.coerceTo d.dataType = some w) :
      Gets d supplied w

/-- Why nothing can be bound: a value is missing, or the supplied one cannot be converted. -/
inductive Refuses (d : ParamDefinition) (supplied : Params) : PostingError → Prop
  | missing (habsent : supplied.get? d.name = none) (hdefault : d.default = none) :
      Refuses d supplied (.missingParameter d.name)
  | unconvertible {v : ParamValue} (hv : supplied.get? d.name = some v)
      (hw : v.coerceTo d.dataType = none) :
      Refuses d supplied (.invalidParameterType d.name d.dataType v.dataType)

/-- The value of a declared parameter, and when there is one. -/
theorem valueIn_cases (haccepted : d.Accepted) (supplied : Params) :
    (d.Bindable supplied ∧ ∃ w, d.valueIn supplied = .ok w ∧ d.Gets supplied w) ∨
      (¬ d.Bindable supplied ∧ ∃ e, d.valueIn supplied = .error e ∧ d.Refuses supplied e) := by
  unfold valueIn convert
  cases hv : supplied.get? d.name with
  | some v =>
    cases hw : v.coerceTo d.dataType with
    | some w => exact Or.inl ⟨Or.inl ⟨v, w, hv, hw⟩, w, by simp [hw], .supplied hv hw⟩
    | none =>
      refine Or.inr ⟨?_, _, by simp [hw], .unconvertible hv hw⟩
      rintro (⟨v', w, hv', hw'⟩ | ⟨habsent, -⟩)
      · cases hv.symm.trans hv'
        cases hw.symm.trans hw'
      · cases hv.symm.trans habsent
  | none =>
    cases hdefault : d.default with
    | some e =>
      obtain ⟨v, w, rfl, hw⟩ := haccepted.exists_literal hdefault
      exact Or.inl ⟨Or.inr ⟨hv, _, hdefault⟩, w, by simp [Expr.literal?, hw],
        .default hv hdefault hw⟩
    | none =>
      refine Or.inr ⟨?_, _, by simp, .missing hv hdefault⟩
      rintro (⟨v, w, hv', -⟩ | ⟨-, e, he⟩)
      · cases hv.symm.trans hv'
      · cases hdefault.symm.trans he

theorem gets_of_valueIn (haccepted : d.Accepted) (h : d.valueIn supplied = .ok w) :
    d.Bindable supplied ∧ d.Gets supplied w := by
  rcases valueIn_cases haccepted supplied with
    ⟨hbindable, w', hw', hgets⟩ | ⟨-, e, he, -⟩
  · cases h.symm.trans hw'
    exact ⟨hbindable, hgets⟩
  · cases h.symm.trans he

theorem refuses_of_valueIn (haccepted : d.Accepted) {e : PostingError}
    (h : d.valueIn supplied = .error e) : ¬ d.Bindable supplied ∧ d.Refuses supplied e := by
  rcases valueIn_cases haccepted supplied with
    ⟨-, w, hw, -⟩ | ⟨hnot, e', he', hrefuses⟩
  · cases h.symm.trans hw
  · cases h.symm.trans he'
    exact ⟨hnot, hrefuses⟩

/-- The row that is bound for a declared parameter. -/
def rowIn (d : ParamDefinition) (supplied : Params) : Except PostingError (String × ParamValue) :=
  (d.valueIn supplied).map (d.name, ·)

theorem rowIn_eq_ok {row : String × ParamValue} :
    d.rowIn supplied = .ok row ↔ row.1 = d.name ∧ d.valueIn supplied = .ok row.2 := by
  unfold rowIn
  rw [map_eq_ok]
  constructor
  · rintro ⟨v, hv, rfl⟩
    exact ⟨rfl, hv⟩
  · rintro ⟨hname, hv⟩
    exact ⟨row.2, hv, by rw [← hname]⟩

end ParamDefinition

/-! ## What is bound -/

structure Params.Matches (bound : Params) (params : List ParamDefinition) : Prop where
  declared : ∀ d ∈ params, ∃ v, bound.get? d.name = some v ∧ v.dataType = d.dataType
  undeclared : ∀ name v, bound.get? name = some v → ∃ d ∈ params, d.name = name

/-- The rows that are bound, declaration by declaration. -/
def boundRows (definitions : List ParamDefinition) (supplied : Params) :
    Except PostingError (List (String × ParamValue)) :=
  definitions.mapM fun d => d.rowIn supplied

theorem bindFrom_eq (supplied bound : Params) (definitions : List ParamDefinition) :
    bindFrom supplied bound definitions = (boundRows definitions supplied).map fun rows =>
      rows.foldl (fun m p => put p.1 p.2 m) bound := by
  induction definitions generalizing bound with
  | nil => rfl
  | cons d rest ih =>
    rw [bindFrom, boundRows, List.mapM_cons, ParamDefinition.rowIn]
    cases d.valueIn supplied with
    | error e => rfl
    | ok v =>
      dsimp only
      rw [ih, boundRows]
      cases rest.mapM fun d => d.rowIn supplied <;> rfl

/-- Every declaration gives a row, and the rows are the table. -/
theorem bind_eq (definitions : List ParamDefinition) (supplied : Params) :
    bind definitions supplied = (boundRows definitions supplied).map fun rows =>
      ⟨ofList rows, ignoredNames definitions supplied⟩ := by
  rw [bind, bindFrom_eq]
  cases boundRows definitions supplied <;> rfl

section Rows

variable {definitions : List ParamDefinition} {supplied : Params}
  {rows : List (String × ParamValue)}

theorem names_of_rows (h : boundRows definitions supplied = .ok rows) :
    rows.map Prod.fst = definitions.map ParamDefinition.name := by
  have hrows := forall₂_of_mapM_eq_ok h
  clear h
  induction hrows with
  | nil => rfl
  | cons hrow _ ih => rw [List.map_cons, List.map_cons, ih, (ParamDefinition.rowIn_eq_ok.mp hrow).1]

theorem get?_ofList_rows (hnames : (definitions.map ParamDefinition.name).Nodup)
    (h : boundRows definitions supplied = .ok rows) {d : ParamDefinition}
    (hd : d ∈ definitions) :
    ∃ v, (ofList rows).get? d.name = some v ∧ d.valueIn supplied = .ok v := by
  obtain ⟨row, hmem, hrow⟩ := exists_mem_of_mapM_eq_ok h hd
  obtain ⟨hname, hv⟩ := ParamDefinition.rowIn_eq_ok.mp hrow
  rw [← hname]
  exact ⟨row.2, get?_ofList_of_mem (by rwa [names_of_rows h]) hmem, hv⟩

theorem mem_keys_rows (h : boundRows definitions supplied = .ok rows) {name : String} :
    name ∈ (ofList rows).keys ↔ name ∈ definitions.map ParamDefinition.name := by
  rw [mem_keys_ofList, names_of_rows h]

end Rows

theorem matches_of_bind {supplied : Params} {params : List ParamDefinition} {bound : BoundParams}
    (hnames : (params.map ParamDefinition.name).Nodup) (h : bind params supplied = .ok bound) :
    bound.params.Matches params := by
  rw [bind_eq] at h
  obtain ⟨rows, hrows, rfl⟩ := map_eq_ok.mp h
  refine ⟨fun d hd => ?_, fun name v hv => ?_⟩
  · obtain ⟨v, hv, hvalue⟩ := get?_ofList_rows hnames hrows hd
    exact ⟨v, hv, ParamDefinition.dataType_of_valueIn hvalue⟩
  · exact List.mem_map.mp ((mem_keys_rows hrows).mp (mem_keys_of_get? hv))

/-! ## Ignored names -/

theorem mem_ignoredNames {definitions : List ParamDefinition} {supplied : Params} {name : String} :
    name ∈ ignoredNames definitions supplied ↔
      (∃ v, supplied.get? name = some v) ∧ name ∉ definitions.map ParamDefinition.name := by
  unfold ignoredNames
  rw [List.mem_filter, mem_keys_iff, contains_iff]
  refine and_congr_right fun _ => ?_
  simp

theorem ascending_ignoredNames (definitions : List ParamDefinition) (supplied : Params) :
    (ignoredNames definitions supplied).Pairwise fun a b => compare a b = .lt :=
  List.Pairwise.filter _ (List.pairwise_map.mpr supplied.ascending)

/-! ## Binding -/

/-- What binding makes of accepted declarations: exactly the declared names, each with its value in
its declared type, and the supplied names that are not declared. -/
structure BoundParams.Completes (b : BoundParams) (definitions : List ParamDefinition)
    (supplied : Params) : Prop where
  names : b.params.keys.Perm (definitions.map ParamDefinition.name)
  values : ∀ d ∈ definitions, ∃ v, b.params.get? d.name = some v ∧ v.dataType = d.dataType ∧
    d.Gets supplied v
  undeclared : ∀ name, name ∈ b.ignored ↔
    (∃ v, supplied.get? name = some v) ∧ name ∉ definitions.map ParamDefinition.name
  ignored_ascending : b.ignored.Pairwise fun a b => compare a b = .lt

section Complete

variable {definitions : List ParamDefinition} {supplied : Params}

theorem exists_bind_iff (haccepted : ∀ d ∈ definitions, d.Accepted) :
    (∃ b, bind definitions supplied = .ok b) ↔ ∀ d ∈ definitions, d.Bindable supplied := by
  rw [bind_eq]
  constructor
  · rintro ⟨b, hb⟩ d hd
    obtain ⟨rows, hrows, -⟩ := map_eq_ok.mp hb
    obtain ⟨row, hrow⟩ := exists_eq_ok_of_mapM hrows hd
    have hvalue := (ParamDefinition.rowIn_eq_ok.mp hrow).2
    exact (ParamDefinition.gets_of_valueIn (haccepted d hd) hvalue).1
  · intro hbindable
    have hrow : ∀ d ∈ definitions, ∃ row, d.rowIn supplied = .ok row := fun d hd => by
      cases hvalue : d.valueIn supplied with
      | ok w => exact ⟨(d.name, w), ParamDefinition.rowIn_eq_ok.mpr ⟨rfl, hvalue⟩⟩
      | error e =>
        have hnot := (ParamDefinition.refuses_of_valueIn (haccepted d hd) hvalue).1
        exact absurd (hbindable d hd) hnot
    obtain ⟨rows, hrows⟩ := exists_mapM_eq_ok hrow
    exact ⟨_, map_eq_ok.mpr ⟨rows, hrows, rfl⟩⟩

theorem completes_of_bind (haccepted : ∀ d ∈ definitions, d.Accepted)
    (hnames : (definitions.map ParamDefinition.name).Nodup) {b : BoundParams}
    (h : bind definitions supplied = .ok b) :
    b.Completes definitions supplied := by
  rw [bind_eq] at h
  obtain ⟨rows, hrows, rfl⟩ := map_eq_ok.mp h
  refine ⟨?_, fun d hd => ?_, fun _ => mem_ignoredNames,
    ascending_ignoredNames definitions supplied⟩
  · exact (List.perm_ext_iff_of_nodup (nodup_keys _) hnames).mpr fun _ => mem_keys_rows hrows
  · obtain ⟨v, hv, hvalue⟩ := get?_ofList_rows hnames hrows hd
    exact ⟨v, hv, ParamDefinition.dataType_of_valueIn hvalue,
      (ParamDefinition.gets_of_valueIn (haccepted d hd) hvalue).2⟩

theorem refuses_of_bind (haccepted : ∀ d ∈ definitions, d.Accepted) {e : PostingError}
    (h : bind definitions supplied = .error e) :
    ∃ before d after, definitions = before ++ d :: after ∧
      (∀ d' ∈ before, d'.Bindable supplied) ∧ d.Refuses supplied e := by
  rw [bind_eq] at h
  obtain ⟨before, d, after, rfl, hbefore, hd⟩ := exists_first_of_mapM_eq_error (map_eq_error.mp h)
  refine ⟨before, d, after, rfl, fun d' hd' => ?_, ?_⟩
  · obtain ⟨row, hrow⟩ := hbefore d' hd'
    have hvalue := (ParamDefinition.rowIn_eq_ok.mp hrow).2
    exact (ParamDefinition.gets_of_valueIn (haccepted d' (List.mem_append_left _ hd')) hvalue).1
  · have haccepted := haccepted d (List.mem_append_right _ List.mem_cons_self)
    exact (ParamDefinition.refuses_of_valueIn haccepted (map_eq_error.mp hd)).2

/-- Only declared names count. -/
theorem bind_agree {other : Params}
    (hagree : ∀ d ∈ definitions, other.get? d.name = supplied.get? d.name) :
    (bind definitions other).map BoundParams.params =
      (bind definitions supplied).map BoundParams.params := by
  have hrows : boundRows definitions other = boundRows definitions supplied :=
    mapM_congr fun d hd => by
      rw [ParamDefinition.rowIn, ParamDefinition.rowIn, ParamDefinition.valueIn,
        ParamDefinition.valueIn, hagree d hd]
  rw [bind_eq, bind_eq, hrows]
  cases boundRows definitions supplied <;> rfl

/-- Every row is made again, since its value has the declared type already. -/
theorem bind_bound (hnames : (definitions.map ParamDefinition.name).Nodup) {b : BoundParams}
    (h : bind definitions supplied = .ok b) : bind definitions b.params = .ok ⟨b.params, []⟩ := by
  rw [bind_eq] at h
  obtain ⟨rows, hrows, rfl⟩ := map_eq_ok.mp h
  have hagain : boundRows definitions (ofList rows) = .ok rows := by
    rw [← hrows]
    refine mapM_congr fun d hd => ?_
    obtain ⟨v, hv, hvalue⟩ := get?_ofList_rows hnames hrows hd
    rw [ParamDefinition.rowIn, ParamDefinition.rowIn, hvalue,
      ParamDefinition.valueIn_of_dataType hv (ParamDefinition.dataType_of_valueIn hvalue)]
  have hignored : ignoredNames definitions (ofList rows) = [] := by
    refine List.eq_nil_iff_forall_not_mem.mpr fun name hname => ?_
    obtain ⟨⟨v, hv⟩, hundeclared⟩ := mem_ignoredNames.mp hname
    exact hundeclared ((mem_keys_rows hrows).mp (mem_keys_of_get? hv))
  rw [bind_eq, hagain, hignored]
  rfl

end Complete

/-- **Binding is complete, typed and blind to undeclared names.** For accepted declarations with
distinct names it succeeds exactly if every declared name is supplied with a value that can be
converted, or has a default and is not supplied. Then the declared names are bound, each to a value
of its type, and the other supplied names are ignored; binding what was bound changes nothing. It
fails at the first declaration that cannot be bound, and because of what is or is not supplied for
it. Values under other names make no difference. -/
theorem bind_complete {definitions : List ParamDefinition} {supplied : Params}
    (haccepted : ∀ d ∈ definitions, d.Accepted)
    (hnames : (definitions.map ParamDefinition.name).Nodup) :
    ((∃ b, bind definitions supplied = .ok b) ↔ ∀ d ∈ definitions, d.Bindable supplied) ∧
    (∀ b, bind definitions supplied = .ok b →
      b.Completes definitions supplied ∧ bind definitions b.params = .ok ⟨b.params, []⟩) ∧
    (∀ e, bind definitions supplied = .error e →
      ∃ before d after, definitions = before ++ d :: after ∧
        (∀ d' ∈ before, d'.Bindable supplied) ∧ d.Refuses supplied e) ∧
    ∀ other : Params, (∀ d ∈ definitions, other.get? d.name = supplied.get? d.name) →
      (bind definitions other).map BoundParams.params =
        (bind definitions supplied).map BoundParams.params :=
  ⟨exists_bind_iff haccepted,
    fun _ hb => ⟨completes_of_bind haccepted hnames hb, bind_bound hnames hb⟩,
    fun _ he => refuses_of_bind haccepted he, fun _ hagree => bind_agree hagree⟩

/-- An amount, and a currency with a default. -/
def Sample.declared : List ParamDefinition :=
  [⟨"amount", .decimal, none, none⟩, ⟨"currency", .string, some (.literal (.string "USD")), none⟩]

/-- A whole number for the amount, and a value that is not asked for. -/
def Sample.amountAndNote : Params :=
  .ofList [("amount", .integer 5), ("note", .string "rent")]

theorem bind_complete_sample :
    ∃ b, bind Sample.declared Sample.amountAndNote = .ok b ∧
      b.Completes Sample.declared Sample.amountAndNote ∧
      bind Sample.declared b.params = .ok ⟨b.params, []⟩ := by
  have haccepted : ∀ d ∈ Sample.declared, d.Accepted := by
    refine List.forall_mem_cons.mpr ⟨⟨⟨"amount", .decimal, none, none⟩, rfl⟩,
      List.forall_mem_singleton.mpr ⟨⟨"currency", .string, some "'USD'", none⟩, rfl⟩⟩
  have hbindable : ∀ d ∈ Sample.declared, d.Bindable Sample.amountAndNote :=
    List.forall_mem_cons.mpr ⟨Or.inl ⟨_, _, rfl, rfl⟩,
      List.forall_mem_singleton.mpr (Or.inr ⟨rfl, _, rfl⟩)⟩
  obtain ⟨hiff, hok, -⟩ := bind_complete haccepted (by decide)
  obtain ⟨b, hb⟩ := hiff.mpr hbindable
  exact ⟨b, hb, hok b hb⟩

end DoubleEntry
