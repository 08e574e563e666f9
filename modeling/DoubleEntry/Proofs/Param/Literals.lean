import DoubleEntry.Proofs.Expr.Grammar
import DoubleEntry.Proofs.Param.Binding

/-!
# Texts and typed literals

A value can be given as a text that is converted to the declared type, or written in the source of a
default as a constructor applied to the text in quotes. The two go different ways: the one text is
trimmed and parsed, the other escaped, scanned, unescaped and handed to the constructor. They meet
at the reader of the type with the same characters, whatever these are, as long as there is nothing
to trim.

So it is up to the caller which of the two a parameter gets its value by (`bind_supplied`).

Main statement: `text_means_literal`.
-/

namespace DoubleEntry

open OrdMap

/-- The types whose values are written as a constructor with a text that is parsed. -/
inductive DataType.Constructor : DataType → String → Prop
  | uuid : Constructor .uuid "uuid"
  | decimal : Constructor .decimal "decimal"
  | date : Constructor .date "date"
  | timestamp : Constructor .timestamp "timestamp"

/-- The source of a constructor applied to a text in quotes. -/
def Expr.applied (word : String) (s : String) : String := String.ofList (applyChars word s.toList)

/-! ## Both ways to the reader of the type -/

section Constructor

variable {t : DataType} {word s : String}

theorem Text.trimChars_of_trim (h : Text.trim s = s) : Text.trimChars s.toList = s.toList := by
  have hchars := congrArg String.toList h
  rwa [Text.trim, String.toList_ofList] at hchars

theorem DataType.Constructor.mem (hword : t.Constructor word) : word ∈ Expr.constructors := by
  cases hword <;> decide

theorem DataType.Constructor.ne_dataType (hword : t.Constructor word) (s : String) :
    (ParamValue.string s).dataType ≠ t := by
  intro h
  cases hword <;> cases h

/-- A text is converted by the reader that the constructor hands its argument to. -/
theorem ParamValue.coerceTo_text (hword : t.Constructor word) (htrim : Text.trim s = s) :
    (ParamValue.string s).coerceTo t = (Expr.construct word s.toList).toOption := by
  have htext : (ParamValue.string s).coerceTo t = parse? s t := by
    rw [coerceTo, if_neg (hword.ne_dataType s)]
  unfold parse? at htext
  rw [htext, Text.trimChars_of_trim htrim]
  cases hword <;> dsimp only <;> rw [Expr.construct]
  · cases Uuid.read s.toList <;> rfl
  · cases Decimal.readExact s.toList <;> rfl
  · cases Date.read s.toList <;> rfl
  · cases Timestamp.readStrict s.toList <;> rfl

theorem Expr.ofString_applied (hword : t.Constructor word) (s : String) {e : Expr} :
    ofString (applied word s) = .ok e ↔
      ∃ v, construct word s.toList = .ok v ∧ .literal v = e := by
  rw [ofString_eq_ok, applied, String.toList_ofList, trimChars_applyChars hword.mem,
    read_applyChars hword.mem, map_eq_ok]

/-- The literal of a text is the value that the text is converted to. -/
theorem coerceTo_text_iff (hword : t.Constructor word) (htrim : Text.trim s = s) {v : ParamValue} :
    (ParamValue.string s).coerceTo t = some v ↔
      Expr.ofString (Expr.applied word s) = .ok (.literal v) := by
  rw [ParamValue.coerceTo_text hword htrim, toOption_eq_some, Expr.ofString_applied hword]
  simp

/-! ## As a default -/

/-- A parameter may have the literal as its default exactly if the text can be converted. -/
theorem define_applied_iff (hword : t.Constructor word) (htrim : Text.trim s = s) {name : String}
    (hname : Text.isIdentifier name.toList = true) (description : Option String)
    {d : ParamDefinition} :
    (⟨name, t, some (Expr.applied word s), description⟩ : NewParamDefinition).define = .ok d ↔
      ∃ v, (ParamValue.string s).coerceTo t = some v ∧
        d = ⟨name, t, some (.literal v), description⟩ := by
  have hdefine : (⟨name, t, some (Expr.applied word s), description⟩ : NewParamDefinition).define =
      (checkDefault name t (Expr.applied word s)).map fun e =>
        ⟨name, t, some e, description⟩ := by
    unfold NewParamDefinition.define
    rw [hname]
    show (some <$> checkDefault name t (Expr.applied word s)) >>= _ = _
    cases checkDefault name t (Expr.applied word s) <;> rfl
  rw [hdefine, map_eq_ok]
  constructor
  · rintro ⟨e, hcheck, rfl⟩
    obtain ⟨hread, v, rfl, -⟩ := checkDefault_eq_ok hcheck
    exact ⟨v, (coerceTo_text_iff hword htrim).mpr hread, rfl⟩
  · rintro ⟨v, hv, rfl⟩
    have hread := (coerceTo_text_iff hword htrim).mp hv
    have htype : v.dataType.assignableTo t = true := by
      rw [ParamValue.dataType_of_coerceTo hv]
      cases t <;> rfl
    refine ⟨.literal v, ?_, rfl⟩
    rw [checkDefault, hread]
    exact if_pos htype

end Constructor

/-! ## Supplied or by default -/

section Supplied

variable {before after : List ParamDefinition} {d d' : ParamDefinition} {supplied : Params}
  {v w : ParamValue}

theorem ignoredNames_put (hname : d'.name = d.name) (value : ParamValue) :
    ignoredNames (before ++ d' :: after) (supplied.put d.name value) =
      ignoredNames (before ++ d :: after) supplied := by
  have hdeclared (name : String) : (before ++ d' :: after).any (fun x => x.name == name) =
      (before ++ d :: after).any fun x => x.name == name := by
    simp only [List.any_append, List.any_cons, hname]
  unfold ignoredNames
  simp only [hdeclared]
  exact filter_keys_put (by simp) value supplied

/-- A default of the declared type is the value where none is supplied. -/
theorem valueIn_default (habsent : supplied.get? d.name = none)
    (hdefault : d.default = some (.literal w)) (hw : w.dataType = d.dataType) :
    d.valueIn supplied = .ok w := by
  have hsame : w.coerceTo d.dataType = some w := if_pos hw
  rw [ParamDefinition.valueIn, habsent, hdefault]
  show d.convert w = .ok w
  rw [ParamDefinition.convert, hsame]

theorem others_of_nodup (h : ((before ++ d :: after).map ParamDefinition.name).Nodup) :
    ∀ x ∈ before ++ after, x.name ≠ d.name := by
  have hperm : (before ++ d :: after).Perm (d :: (before ++ after)) := List.perm_middle
  have hcons := (hperm.map ParamDefinition.name).nodup_iff.mp h
  rw [List.map_cons, List.nodup_cons] at hcons
  exact fun x hx heq => hcons.1 (heq ▸ List.mem_map_of_mem hx)

/-- A value that is converted to the default can be supplied instead of it, for the same outcome of
the whole binding. -/
theorem bind_supplied (hname : d'.name = d.name) (htype : d'.dataType = d.dataType)
    (hothers : ∀ x ∈ before ++ after, x.name ≠ d.name) (habsent : supplied.get? d.name = none)
    (hdefault : d.default = some (.literal w)) (hw : w.dataType = d.dataType)
    (hv : v.coerceTo d.dataType = some w) :
    bind (before ++ d' :: after) (supplied.put d.name v) =
      bind (before ++ d :: after) supplied := by
  have hrow (x : ParamDefinition) (hx : x ∈ before ++ after) :
      x.rowIn (supplied.put d.name v) = x.rowIn supplied := by
    rw [ParamDefinition.rowIn, ParamDefinition.rowIn, ParamDefinition.valueIn,
      ParamDefinition.valueIn, get?_put_of_ne (hothers x hx)]
  have hvalue' : d'.valueIn (supplied.put d.name v) = .ok w := by
    rw [ParamDefinition.valueIn, hname, get?_put_self]
    dsimp only
    rw [ParamDefinition.convert, htype, hv]
  have hd : d'.rowIn (supplied.put d.name v) = d.rowIn supplied := by
    rw [ParamDefinition.rowIn, ParamDefinition.rowIn, hvalue', valueIn_default habsent hdefault hw,
      hname]
  have hrows : boundRows (before ++ d' :: after) (supplied.put d.name v) =
      boundRows (before ++ d :: after) supplied := by
    unfold boundRows
    rw [List.mapM_append, List.mapM_append, List.mapM_cons, List.mapM_cons, hd,
      mapM_congr fun x hx => hrow x (List.mem_append_left _ hx),
      mapM_congr fun x hx => hrow x (List.mem_append_right _ hx)]
  rw [bind_eq, bind_eq, hrows, ignoredNames_put hname]

end Supplied

/-- **A text and the typed literal that quotes it mean the same.** For every text with no blanks
around it and each type with its constructor: the text is converted to a value exactly if the source
of the constructor applied to it is read, as the literal of this value and as nothing else. The
source is accepted as the default of a parameter of the type exactly if the text can be converted.
And whatever else is declared and supplied, binding comes to the same with this default as with the
text supplied, with the value under the name of the parameter. -/
theorem text_means_literal {t : DataType} {word : String} (hword : t.Constructor word) {s : String}
    (htrim : Text.trim s = s) :
    let source := Expr.applied word s
    (∀ v, (ParamValue.string s).coerceTo t = some v ↔ Expr.ofString source = .ok (.literal v)) ∧
    (∀ e, Expr.ofString source = .ok e → ∃ v, e = .literal v) ∧
    ∀ name description, Text.isIdentifier name.toList = true →
      let declared : NewParamDefinition := ⟨name, t, some source, description⟩
      ((∃ d, declared.define = .ok d) ↔ ∃ v, (ParamValue.string s).coerceTo t = some v) ∧
      ∀ d v, declared.define = .ok d → (ParamValue.string s).coerceTo t = some v →
        ∀ before after (d' : ParamDefinition) supplied, d'.name = name → d'.dataType = t →
          ((before ++ d :: after).map ParamDefinition.name).Nodup → supplied.get? name = none →
          bind (before ++ d' :: after) (supplied.put name (.string s)) =
              bind (before ++ d :: after) supplied ∧
            ∀ b, bind (before ++ d :: after) supplied = .ok b → b.params.get? name = some v := by
  intro source
  refine ⟨fun v => coerceTo_text_iff hword htrim, fun e he => ?_, fun name description hname => ?_⟩
  · obtain ⟨v, -, rfl⟩ := (Expr.ofString_applied hword s).mp he
    exact ⟨v, rfl⟩
  have hdefine {d : ParamDefinition} := define_applied_iff (d := d) hword htrim hname description
  refine ⟨⟨fun ⟨d, hd⟩ => ?_, fun ⟨v, hv⟩ => ⟨_, hdefine.mpr ⟨v, hv, rfl⟩⟩⟩, ?_⟩
  · obtain ⟨v, hv, -⟩ := hdefine.mp hd
    exact ⟨v, hv⟩
  intro d v hd hv before after d' supplied hname' htype' hnames habsent
  obtain ⟨w, hw, rfl⟩ := hdefine.mp hd
  cases hv.symm.trans hw
  have htype := ParamValue.dataType_of_coerceTo hv
  refine ⟨bind_supplied hname' htype' (others_of_nodup hnames) habsent rfl htype hv, fun b hb => ?_⟩
  rw [bind_eq] at hb
  obtain ⟨rows, hrows, rfl⟩ := map_eq_ok.mp hb
  obtain ⟨x, hx, hvalue⟩ :=
    get?_ofList_rows hnames hrows (List.mem_append_right _ List.mem_cons_self)
  have hdefault :=
    valueIn_default (d := ⟨name, t, some (.literal v), description⟩) habsent rfl htype
  cases hvalue.symm.trans hdefault
  exact hx

namespace Sample

/-- The extra second at the end of the year 2016, an hour east of Greenwich. -/
def newYear : String := "2017-01-01T00:59:60.5+01:00"

/-- A number with a quote of each kind and a backslash behind it. -/
def quoted : String := "1'\"\\"

end Sample

theorem text_means_literal_sample :
    Expr.ofString (Expr.applied "timestamp" Sample.newYear) =
        .ok (.literal (.timestamp Sample.leapSecond)) ∧
      (∃ d b, (⟨"at", .timestamp, some (Expr.applied "timestamp" Sample.newYear), none⟩ :
            NewParamDefinition).define = .ok d ∧
          bind [d] ∅ = .ok b ∧ bind [d] (.ofList [("at", .string Sample.newYear)]) = .ok b ∧
          b.params.get? "at" = some (.timestamp Sample.leapSecond)) ∧
      Expr.applied "decimal" Sample.quoted = "decimal('1\\'\"\\\\')" ∧
      ¬ ∃ v, Expr.ofString (Expr.applied "decimal" Sample.quoted) = .ok (.literal v) := by
  obtain ⟨htimes, -, hat⟩ :=
    text_means_literal .timestamp (s := Sample.newYear) (by decide +kernel)
  have hvalue : (ParamValue.string Sample.newYear).coerceTo .timestamp =
      some (.timestamp Sample.leapSecond) := by rfl
  obtain ⟨hdefine, hbind⟩ := hat "at" none (by decide)
  obtain ⟨d, hd⟩ := hdefine.mpr ⟨_, hvalue⟩
  obtain ⟨b, hb⟩ : ∃ b, bind [d] ∅ = .ok b := by
    obtain ⟨v, hv, rfl⟩ :=
      (define_applied_iff .timestamp (by decide +kernel) (by decide) none).mp hd
    cases hvalue.symm.trans hv
    exact ⟨_, rfl⟩
  obtain ⟨hsame, hbound⟩ := hbind d _ hd hvalue [] [] d ∅ (NewParamDefinition.define_eq_ok hd).2.1
    (NewParamDefinition.define_eq_ok hd).2.2.1 (by simp) rfl
  obtain ⟨hnumbers, -⟩ := text_means_literal .decimal (s := Sample.quoted) (by decide +kernel)
  refine ⟨(htimes _).mp hvalue, ⟨d, b, hd, hb, hsame.trans hb, hbound b hb⟩, by decide +kernel, ?_⟩
  rintro ⟨v, hv⟩
  cases (hnumbers v).mpr hv

end DoubleEntry
