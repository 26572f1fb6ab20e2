import Mathlib.Data.List.Nodup
import Daq.Config.File
import Daq.Proofs.Json.Documents
import Daq.Proofs.Toml.Documents

set_option autoImplicit false

/-!
# Fields of records that were written

Either format keeps the fields of a record under their names, but TOML leaves out those that are
null and moves those with sections of their own behind the others. Fields are looked up by name, so
the order does not matter, and the value of each field depends on nothing but what was written for
it.

## Main definitions

* `Daq.Format.field`, `Daq.Format.item` — what the value of a field, or an item of a list, is read
  back as.
* `Daq.Format.IsField`, `Daq.Format.IsTable`, `Daq.Format.IsMember` — which values are read back, by
  the place where they stand.

## Main results

* `Daq.Document.fields_eq` — the fields of a record with distinct names.
* `Daq.Format.fields_item` — the fields of a record within a record.
* `Daq.Format.read_render` — the fields of a whole text.
-/

namespace Daq

namespace Document

variable {names : List String} {name : String} {ms : List (String × Document)}

/-- A name that does not occur has no values. -/
lemma membersNamed_eq_nil (h : name ∉ ms.map Prod.fst) : membersNamed name ms = [] := by
  rw [membersNamed, List.filterMap_eq_nil_iff]
  intro m hm
  rw [if_neg]
  rintro rfl
  exact h (List.mem_map_of_mem hm)

/-- A name that does not occur is absent. -/
lemma soleMember?_of_not_mem (h : name ∉ ms.map Prod.fst) : soleMember? ms name = some none := by
  rw [soleMember?, membersNamed_eq_nil h]

/-- If names are distinct, a member is the only one of its name. -/
lemma soleMember?_of_mem (hdistinct : (ms.map Prod.fst).Nodup) {d : Document}
    (h : (name, d) ∈ ms) : soleMember? ms name = some (some d) := by
  have hsole : membersNamed name ms = [d] := by
    induction ms with
    | nil => cases h
    | cons m ms ih =>
      rw [List.map_cons, List.nodup_cons] at hdistinct
      rw [membersNamed, List.filterMap_cons]
      rcases List.mem_cons.mp h with rfl | hmem
      · rw [if_pos rfl]
        exact congrArg (d :: ·) (membersNamed_eq_nil hdistinct.1)
      · have hne : m.1 ≠ name := by
          intro heq
          exact hdistinct.1 (heq ▸ List.mem_map_of_mem hmem)
        rw [if_neg hne]
        exact ih hdistinct.2 hmem
  rw [soleMember?, hsole]

/-- Names and values of a record belong together. -/
lemma eq_of_mem_zip (hdistinct : names.Nodup) {ds : List Document}
    (hlength : names.length = ds.length) {d e : Document} (hd : (name, d) ∈ names.zip ds)
    (he : (name, e) ∈ names.zip ds) : d = e := by
  have hfst : ((names.zip ds).map Prod.fst).Nodup := by
    rw [List.map_fst_zip (by omega)]
    exact hdistinct
  exact congrArg Prod.snd (List.inj_on_of_nodup_map hfst hd he rfl)

/-- **The fields of a record with distinct names.** Every named value that is kept is found under
its name, in whatever order the members stand. -/
theorem fields_eq (c : Convention) (hdistinct : names.Nodup) {ds : List Document}
    (hlength : names.length = ds.length) (kept : Document → Option Document)
    (hms : (ms.map Prod.fst).Nodup)
    (h : ∀ name x, (name, x) ∈ ms ↔ ∃ d, (name, d) ∈ names.zip ds ∧ kept d = some x) :
    fields c names (.record ms) = some (ds.map kept) := by
  -- A value that is not kept leaves its name without a member, since no other value has the name.
  have hsole : ∀ m ∈ names.zip ds, soleMember? ms m.1 = some (kept m.2) := by
    rintro ⟨name, d⟩ hd
    dsimp only
    cases hkept : kept d with
    | some x => exact soleMember?_of_mem hms ((h name x).mpr ⟨d, hd, hkept⟩)
    | none =>
      apply soleMember?_of_not_mem
      intro hmem
      obtain ⟨⟨n, x⟩, hx, rfl⟩ := List.mem_map.mp hmem
      obtain ⟨e, he, hkept'⟩ := (h n x).mp hx
      rw [eq_of_mem_zip hdistinct hlength he hd, hkept] at hkept'
      cases hkept'
  have hmapM : ∀ (ns : List String) (es : List Document), ns.length = es.length →
      (∀ m ∈ ns.zip es, soleMember? ms m.1 = some (kept m.2)) →
      ns.mapM (soleMember? ms) = some (es.map kept) := by
    intro ns
    induction ns with
    | nil =>
      intro es hlen _
      rw [List.eq_nil_of_length_eq_zero hlen.symm]
      rfl
    | cons n ns ih =>
      intro es hlen hall
      cases es with
      | nil => cases hlen
      | cons e es =>
        rw [List.mapM_cons, hall (n, e) (by simp),
          ih es (Nat.succ.inj hlen) fun m hm => hall m (by simp [hm])]
        rfl
  exact hmapM names ds hlength hsole

end Document

/-! ### What was written for a field -/

namespace Format

/-- What an item of a list is read back as. -/
def item : Format → Document → Document
  | json => Json.stored
  | toml => Toml.storedTable

/-- What the value of a field is read back as. In TOML null is left out. -/
def field : Format → Document → Option Document
  | json, d => some (Json.stored d)
  | toml, .null => none
  | toml, d => some (Toml.storedSection d)

/-- Whether a value is read back as the value of a field on a line of its own. -/
def IsField : Format → Document → Prop
  | json, d => Json.Legible d
  | toml, d => d = .null ∨ Toml.IsValue d

/-- Whether a value is read back as an item of a list of records. -/
def IsTable : Format → Document → Prop
  | json, d => Json.Legible d
  | toml, d => ∃ ms, d = .record ms ∧ Toml.IsTable ms

/-- Whether a value is read back as the value of a field of the whole text. -/
def IsMember : Format → Document → Prop
  | json, d => Json.Legible d
  | toml, d => d = .null ∨ Toml.IsValue d ∨ Toml.IsSection d

variable {f : Format} {names : List String} {ds : List Document}

/-- A value on a line may stand at the top. -/
lemma IsField.isMember {d : Document} (h : f.IsField d) : f.IsMember d := by
  cases f with
  | json => exact h
  | toml => exact h.imp_right .inl

/-- A record may stand at the top. -/
lemma IsTable.isMember {d : Document} (h : f.IsTable d) : f.IsMember d := by
  cases f with
  | json => exact h
  | toml =>
    obtain ⟨ms, rfl, hms⟩ := h
    exact .inr (.inr hms)

/-- A list of records may stand at the top. -/
lemma isMember_list (h : ∀ d ∈ ds, f.IsTable d) : f.IsMember (.list ds) := by
  cases f with
  | json => exact (Json.legibleItems_iff ds).mpr h
  | toml =>
    cases ds with
    | nil => exact .inr (.inl trivial)
    | cons d ds => exact .inr (.inr ⟨by simp, h⟩)

/-- The names of the fields of a record. -/
structure FieldNames (names : List String) : Prop where
  /-- They are written without quotes. -/
  bare : ∀ name ∈ names, Toml.IsName name
  /-- No name occurs twice. -/
  distinct : names.Nodup

/-- Names and values that belong together make members. -/
lemma hasMembers_zip {P : Document → Prop} (hnames : FieldNames names)
    (hlength : names.length = ds.length) (h : ∀ d ∈ ds, P d) :
    Toml.HasMembers P (names.zip ds) := by
  refine ⟨?_, ?_, ?_⟩
  · exact fun m hm => hnames.bare m.1 (List.of_mem_zip hm).1
  · rw [List.map_fst_zip (by omega)]
    exact hnames.distinct
  · exact fun m hm => h m.2 (List.of_mem_zip hm).2

/-- A record of values on lines. -/
lemma isTable_record (hnames : FieldNames names) (hlength : names.length = ds.length)
    (h : ∀ d ∈ ds, f.IsField d) : f.IsTable (.record (names.zip ds)) := by
  cases f with
  | json => exact (Json.legibleMembers_iff _).mpr fun m hm => h m.2 (List.of_mem_zip hm).2
  | toml => exact ⟨_, rfl, hasMembers_zip hnames hlength h⟩

/-- In TOML a field is kept unless it is null. -/
lemma field_toml_eq_some {d x : Document} :
    toml.field d = some x ↔ d ≠ .null ∧ Toml.storedSection d = x := by
  cases d <;> simp [field]

/-- The fields of a record in JSON. -/
lemma fields_json (hnames : FieldNames names) (hlength : names.length = ds.length) :
    Document.fields json.convention names (Json.stored (.record (names.zip ds))) =
      some (ds.map json.field) := by
  rw [Json.stored, Json.storedMembers_eq]
  apply Document.fields_eq json.convention hnames.distinct hlength
  · rw [List.map_map]
    have hfst : (Prod.fst ∘ fun m : String × Document => (m.1, Json.stored m.2)) = Prod.fst := rfl
    rw [hfst, List.map_fst_zip (by omega)]
    exact hnames.distinct
  · intro name x
    simp [field]

/-- The fields of a whole text in TOML. -/
lemma fields_toml (hnames : FieldNames names) (hlength : names.length = ds.length)
    (h : ∀ d ∈ ds, toml.IsMember d) :
    Document.fields toml.convention names (.record (Toml.storedTop (names.zip ds))) =
      some (ds.map toml.field) := by
  have htop : Toml.IsTop (names.zip ds) := hasMembers_zip hnames hlength h
  apply Document.fields_eq toml.convention hnames.distinct hlength
  · exact htop.nodup_storedTop
  · intro name x
    rw [htop.mem_storedTop]
    simp only [field_toml_eq_some]

/-- **The fields of a record within a record.** -/
theorem fields_item (hnames : FieldNames names) (hlength : names.length = ds.length)
    (h : ∀ d ∈ ds, f.IsField d) :
    Document.fields f.convention names (f.item (.record (names.zip ds))) =
      some (ds.map f.field) := by
  cases f with
  | json => exact fields_json hnames hlength
  | toml =>
    obtain ⟨ms, hms, htable⟩ := isTable_record hnames hlength h
    obtain rfl := Document.record.inj hms
    have hitem : toml.item (.record (names.zip ds)) =
        .record (Toml.storedTop (names.zip ds)) := by
      rw [htable.storedTop]
      rfl
    rw [hitem]
    exact fields_toml hnames hlength fun d hd => (h d hd).isMember

/-- **The fields of a whole text.** -/
theorem read_render (hnames : FieldNames names) (hlength : names.length = ds.length)
    (h : ∀ d ∈ ds, f.IsMember d) :
    ∃ text d, f.render (.record (names.zip ds)) = some text ∧ f.read text = some d ∧
      Document.fields f.convention names d = some (ds.map f.field) := by
  cases f with
  | json =>
    have hlegible : Json.Legible (.record (names.zip ds)) :=
      (Json.legibleMembers_iff _).mpr fun m hm => h m.2 (List.of_mem_zip hm).2
    exact ⟨_, _, rfl, Json.read_render hlegible, fields_json hnames hlength⟩
  | toml =>
    obtain ⟨text, hrender, hread⟩ := Toml.read_render (hasMembers_zip hnames hlength h)
    exact ⟨text, _, hrender, hread, fields_toml hnames hlength h⟩

/-- A record is read back in the same way as a field and as an item. -/
lemma field_record (ms : List (String × Document)) :
    f.field (.record ms) = some (f.item (.record ms)) := by
  cases f <;> rfl

/-- A list of records is read back item by item. -/
lemma field_list (ds : List Document) : f.field (.list ds) = some (.list (ds.map f.item)) := by
  cases f with
  | json => rw [field, Json.stored, Json.storedItems_eq, item]
  | toml => rfl

end Format

end Daq
