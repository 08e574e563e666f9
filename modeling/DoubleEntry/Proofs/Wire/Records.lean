import DoubleEntry.Json.Decode
import DoubleEntry.Proofs.Results
import DoubleEntry.Proofs.Tables

/-!
# Objects decode to what their members stand for

Reading an object first checks every member that is there and then assembles the value. A record
that is made of fields only checks what it also assembles (`Record.Sound`), so it comes out with a
value exactly if the assembly does. An object written member by member has its members where they
are looked for, and decoding it comes down to one equation for each member (`decode_ofMembers`).
-/

namespace DoubleEntry

namespace Record

variable {α β : Type} {get : String → Option Json}

/-! ## Assembly -/

theorem build_seq (f : Record (α → β)) (x : Record α) :
    (f <*> x).build get = f.build get >>= fun g => x.build get >>= fun a => .ok (g a) := rfl

theorem build_map (f : α → β) (x : Record α) :
    (f <$> x).build get = x.build get >>= fun a => .ok (f a) := rfl

/-- A member that is there. -/
theorem build_required {name : String} {j : Json} (h : get name = some j) (d : Decoder α) :
    (required name d).build get = d j := by
  unfold required field
  dsimp only
  rw [h]

/-- A member that is there. -/
theorem build_optional {name : String} {j : Json} (h : get name = some j) (d : Decoder α) :
    (optional name d).build get = Decode.optional d j := by
  unfold optional field
  dsimp only
  rw [h]

@[simp]
theorem build_seq_eq_ok {f : Record (α → β)} {x : Record α} {b : β} :
    (f <*> x).build get = .ok b ↔
      ∃ g, f.build get = .ok g ∧ ∃ a, x.build get = .ok a ∧ g a = b := by
  simp only [build_seq, bind_eq_ok, Except.ok.injEq]

@[simp]
theorem build_map_eq_ok {f : α → β} {x : Record α} {b : β} :
    (f <$> x).build get = .ok b ↔ ∃ a, x.build get = .ok a ∧ f a = b := by
  simp only [build_map, bind_eq_ok, Except.ok.injEq]

@[simp]
theorem build_required_eq_ok {name : String} {d : Decoder α} {a : α} :
    (required name d).build get = .ok a ↔ ∃ j, get name = some j ∧ d j = .ok a := by
  unfold required field
  dsimp only
  cases get name with
  | none => exact iff_of_false nofun nofun
  | some j => simp

theorem build_optional_eq_ok {name : String} {d : Decoder α} {a : Option α} {j : Json}
    (h : get name = some j) :
    (optional name d).build get = .ok a ↔ Decode.optional d j = .ok a := by
  rw [build_optional h]

/-! ## Checks -/

/-- The members a value is assembled from pass their checks. -/
def Sound (r : Record α) : Prop :=
  ∀ (get : String → Option Json) (a : α), r.build get = .ok a →
    ∀ (name : String) (j : Json), get name = some j → r.check name j = .ok ()

theorem Sound.seq {f : Record (α → β)} {x : Record α} (hf : f.Sound) (hx : x.Sound) :
    (f <*> x).Sound := by
  intro get b hbuild name j hj
  obtain ⟨g, hg, a, ha, -⟩ := build_seq_eq_ok.mp hbuild
  exact bind_unit_eq_ok.mpr ⟨hf get g hg name j hj, hx get a ha name j hj⟩

theorem sound_pure (a : α) : (pure a : Record α).Sound := fun _ _ _ _ _ _ => rfl

theorem sound_field (name : String) (d : Decoder α) (absent : Option α) :
    (field name d absent).Sound := by
  intro get a hbuild other j hj
  unfold field at hbuild ⊢
  dsimp only at hbuild ⊢
  split
  · next hname =>
    rw [← eq_of_beq hname, hj] at hbuild
    have hd : d j = .ok a := hbuild
    rw [hd]
    rfl
  · rfl

theorem sound_required (name : String) (d : Decoder α) : (required name d).Sound :=
  sound_field name d none

theorem sound_optional (name : String) (d : Decoder α) : (optional name d).Sound :=
  sound_field name _ _

theorem ofMembers_eq_ok {r : Record α} (hr : r.Sound) {ms : List (String × Json)}
    (hms : OrdMap.Ascending ms) {a : α} :
    r.ofMembers ms = .ok a ↔ r.build (fun name => ms.lookup name) = .ok a := by
  rw [Record.ofMembers, bind_unit_eq_ok, and_iff_right_iff_imp]
  intro hbuild
  rw [forM_eq_ok]
  rintro ⟨name, j⟩ hmem
  exact hr _ a hbuild name j (hms.lookup_iff.mpr hmem)

/-- **An object decodes to what is assembled from its members.** -/
theorem decode_ofMembers {r : Record α} (hr : r.Sound) {pairs : List (String × Json)}
    (hnodup : (pairs.map Prod.fst).Nodup) {title : String} {a : α} :
    r.decode title (.ofMembers pairs) = .ok a ↔
      r.build (fun name => pairs.lookup name) = .ok a := by
  simp only [← OrdMap.get?_ofList_eq_lookup hnodup]
  exact ofMembers_eq_ok hr (OrdMap.ofList pairs).ascending

end Record

/-! ## Values inside others -/

namespace Decode

variable {α β : Type} {f : α → Json} {d : Decoder β}

/-- A value that may be missing, written as null if it is. -/
theorem optional_ofOption (hf : ∀ a, f a ≠ .null) {o : Option α} {o' : Option β} :
    optional d (.ofOption f o) = .ok o' ↔ Option.Rel (fun a b => d (f a) = .ok b) o o' := by
  rw [← option_mapM_eq_ok]
  cases o with
  | none => rfl
  | some a =>
    show optional d (f a) = .ok o' ↔ (d (f a)).map some = .ok o'
    unfold optional
    split
    · next hnull => exact absurd hnull (hf a)
    · rfl

theorem list_ofList {as : List α} {bs : List β} :
    list d (.ofList f as) = .ok bs ↔ List.Forall₂ (fun a b => d (f a) = .ok b) as bs := by
  show (as.map f).mapM d = .ok bs ↔ _
  rw [mapM_eq_ok_iff_forall₂, List.forall₂_map_left_iff]

end Decode

end DoubleEntry
