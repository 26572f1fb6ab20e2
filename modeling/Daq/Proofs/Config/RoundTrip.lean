import Daq.Proofs.Config.Fields
import Daq.Proofs.Files

set_option autoImplicit false

/-!
# Loading a configuration that was saved

A configuration that was saved is loaded again with the same values, but for one exception. TOML has
no null: an optional field without a value is left out, and the reader gives a field that is left
out its default. Absent sample limits and log files are absent by default, so they survive. The
distance of triggers is present by default, so a generator that was saved without triggers has them
when it is loaded.

## Main definitions

* `Daq.Format.Keeps` — a number is printed and read back unchanged.
* `Daq.AppConfig.storedAs` — what a configuration is loaded as.

## Main results

* `Daq.AppConfig.load_of_save` — what is loaded after saving.
* `Daq.AppConfig.storedAs_eq_self_iff` — when that is what was saved.
* `Daq.AppConfig.load_save` — both together.
-/

namespace Daq

open Document

/-! ### Single fields -/

namespace Format

variable {f : Format}

/-- What the text of a number is read as. -/
def numeral : Format → Single → Document
  | json, x => Json.numberOf (Json.singleLayout.single x)
  | toml, x => Toml.numberOf (Toml.layout.double x.widen)

/-- Whether a number is printed and read back unchanged. -/
def Keeps (f : Format) (x : Single) : Prop := (f.numeral x).toSingle = some x

/-- Whether a number is kept is found out by printing it. -/
instance (f : Format) (x : Single) : Decidable (f.Keeps x) := inferInstanceAs (Decidable (_ = _))

/-- An optional value as it is read back: in TOML an absent one takes the default. -/
def restored {α : Type} : Format → Option α → Option α → Option α
  | json, _, o => o
  | toml, standard, o => o.or standard

/-- A text may be the value of a field. -/
lemma isField_text (s : String) : f.IsField (.text s) := by
  cases f with
  | json => exact trivial
  | toml => exact .inr trivial

/-- A truth value may be the value of a field. -/
lemma isField_bool (b : Bool) : f.IsField (.bool b) := by
  cases f with
  | json => exact trivial
  | toml => exact .inr trivial

/-- A count may be the value of a field. -/
lemma isField_count {n : Nat} (h : (n : Int) < integerBound) : f.IsField (ofCount n) := by
  have hbound : integerBound ≤ (countBound : Int) := by decide
  have hpos : -integerBound ≤ 0 := by decide
  cases f with
  | json => exact ⟨by omega, by omega⟩
  | toml => exact .inr ⟨by omega, h⟩

/-- A finite number may be the value of a field. -/
lemma isField_single {x : Single} (hfinite : x.isFinite = true) (h : f.Keeps x) :
    f.IsField (.single x) := by
  have hreadable : f.numeral x ≠ .unreadable := by
    intro heq
    rw [Keeps, heq] at h
    cases h
  cases f with
  | json => exact ⟨hfinite, Json.isNumber_of_ne hreadable⟩
  | toml => exact .inr (Toml.isNumber_of_ne hreadable)

/-- An optional value may be the value of a field. -/
lemma isField_optional {α : Type} {e : α → Document} {o : Option α}
    (h : ∀ a ∈ o, f.IsField (e a)) : f.IsField (ofOptional e o) := by
  cases o with
  | some a => exact h a rfl
  | none =>
    cases f with
    | json => exact trivial
    | toml => exact .inl rfl

/-- A text is read back. -/
lemma orDefault_text (standard s : String) :
    orDefault standard toText (f.field (.text s)) = some s := by
  cases f <;> rfl

/-- A truth value is read back. -/
lemma orDefault_bool (standard b : Bool) :
    orDefault standard toBool (f.field (.bool b)) = some b := by
  cases f <;> rfl

/-- A shape is read back. -/
lemma orDefault_waveform (standard w : Waveform) :
    orDefault standard (Waveform.decode f.convention) (f.field w.encode) = some w := by
  cases f <;> cases w <;> rfl

/-- A number that is kept is read back. -/
lemma orDefault_single (standard : Single) {x : Single} (h : f.Keeps x) :
    orDefault standard toSingle (f.field (.single x)) = some x := by
  have hfield : f.field (.single x) = some (f.numeral x) := by cases f <;> rfl
  rw [hfield]
  exact h

/-- A count is read back as it is. -/
lemma toCount_ofCount {n : Nat} (h : (n : Int) < integerBound) : toCount (ofCount n) = some n := by
  have hbound : integerBound ≤ (countBound : Int) := by decide
  have hrange : 0 ≤ (n : Int) ∧ (n : Int) < countBound := ⟨by omega, by omega⟩
  rw [ofCount, toCount, if_pos hrange]
  rfl

/-- A count is read back. -/
lemma orDefault_count (standard : Nat) {n : Nat} (h : (n : Int) < integerBound) :
    orDefault standard toCount (f.field (ofCount n)) = some n := by
  have hfield : f.field (ofCount n) = some (ofCount n) := by cases f <;> rfl
  rw [hfield, orDefault, toCount_ofCount h]

/-- An optional value is read back, up to the default that TOML fills in. -/
lemma orDefault_optional {α : Type} {e : α → Document} {g : Document → Option α}
    (standard : Option α) {o : Option α} (h : ∀ a ∈ o, f.field (e a) = some (e a) ∧
      toOptional g (e a) = some (some a)) :
    orDefault standard (toOptional g) (f.field (ofOptional e o)) =
      some (f.restored standard o) := by
  cases o with
  | none => cases f <;> rfl
  | some a =>
    obtain ⟨hfield, hread⟩ := h a rfl
    rw [ofOptional, hfield]
    cases f <;> exact hread

/-- An optional count is read back, up to the default that TOML fills in. -/
lemma orDefault_optionalCount (standard : Option Nat) {o : Option Nat}
    (h : ∀ n ∈ o, (n : Int) < integerBound) :
    orDefault standard (toOptional toCount) (f.field (ofOptional ofCount o)) =
      some (f.restored standard o) := by
  apply orDefault_optional
  intro n hn
  have hcount : toOptional toCount (ofCount n) = (toCount (ofCount n)).map some := rfl
  refine ⟨by cases f <;> rfl, ?_⟩
  rw [hcount, toCount_ofCount (h n hn), Option.map_some]

/-- An optional text is read back, up to the default that TOML fills in. -/
lemma orDefault_optionalText (standard o : Option String) :
    orDefault standard (toOptional toText) (f.field (ofOptional .text o)) =
      some (f.restored standard o) := by
  apply orDefault_optional
  intro s _
  exact ⟨by cases f <;> rfl, rfl⟩

end Format

/-- A field that is read lets the reading go on. -/
lemma bind_of_eq_some {α β : Type} {o : Option α} {a : α} (h : o = some a) {k : α → Option β} :
    (o >>= k) = k a := by
  rw [h]
  rfl

/-! ### Workers -/

namespace WorkerConfig

variable {f : Format}

/-- The whole numbers of a configuration. -/
def counts (c : WorkerConfig) : List Nat :=
  [c.tickPeriod, c.drainPause, c.idlePause, c.streamingCapacity, c.datasetCapacity,
    c.subscriberCapacity, c.eventCapacity]

/-- The fields have plain and distinct names. -/
lemma fieldNames_ok : Format.FieldNames fieldNames := ⟨by decide, by decide⟩

/-- The values of the fields, in order. -/
def values (c : WorkerConfig) : List Document :=
  [.text c.servicePath, ofCount c.tickPeriod, ofCount c.drainPause, ofCount c.idlePause,
    ofCount c.streamingCapacity, ofCount c.datasetCapacity, ofCount c.subscriberCapacity,
    ofCount c.eventCapacity]

/-- A configuration is written field by field. -/
lemma encode_eq (c : WorkerConfig) : c.encode = .record (fieldNames.zip c.values) := rfl

/-- Every field is read back. -/
lemma isField_of_mem_values {c : WorkerConfig} (h : ∀ n ∈ c.counts, (n : Int) < integerBound) :
    ∀ d ∈ c.values, f.IsField d := by
  simp only [counts, List.mem_cons, List.not_mem_nil, or_false, forall_eq_or_imp, forall_eq] at h
  simp [values, Format.isField_text, Format.isField_count, h]

/-- A configuration is read back. -/
lemma decode_item {c : WorkerConfig} (h : ∀ n ∈ c.counts, (n : Int) < integerBound) :
    decode f.convention (f.item c.encode) = some c := by
  have hfields := Format.fields_item fieldNames_ok rfl (isField_of_mem_values (f := f) h)
  simp only [counts, List.mem_cons, List.not_mem_nil, or_false, forall_eq_or_imp, forall_eq] at h
  obtain ⟨htick, hdrain, hidle, hstreaming, hdataset, hsubscriber, hevent⟩ := h
  rw [encode_eq, decode, hfields, values, bind_of_eq_some rfl]
  dsimp only [List.map]
  rw [bind_of_eq_some (Format.orDefault_text _ _),
    bind_of_eq_some (Format.orDefault_count _ htick),
    bind_of_eq_some (Format.orDefault_count _ hdrain),
    bind_of_eq_some (Format.orDefault_count _ hidle),
    bind_of_eq_some (Format.orDefault_count _ hstreaming),
    bind_of_eq_some (Format.orDefault_count _ hdataset),
    bind_of_eq_some (Format.orDefault_count _ hsubscriber),
    bind_of_eq_some (Format.orDefault_count _ hevent)]
  rfl

end WorkerConfig

/-! ### Generators -/

namespace GeneratorConfig

variable {f : Format}

/-- The whole numbers of a configuration. -/
def counts (c : GeneratorConfig) : List Nat :=
  c.chunk :: (c.triggerEvery.toList ++ c.limit.toList)

/-- The numbers of a configuration that may have a fraction. -/
def numbers (c : GeneratorConfig) : List Single := [c.amplitude, c.offset, c.frequency, c.rate]

/-- What a configuration is loaded as. -/
def storedAs (f : Format) (c : GeneratorConfig) : GeneratorConfig :=
  let standard : GeneratorConfig := {}
  { c with
    triggerEvery := f.restored standard.triggerEvery c.triggerEvery
    limit := f.restored standard.limit c.limit }

/-- The fields have plain and distinct names. -/
lemma fieldNames_ok : Format.FieldNames fieldNames := ⟨by decide, by decide⟩

/-- The values of the fields, in order. -/
def values (c : GeneratorConfig) : List Document :=
  [.text c.signal, .text c.unit, c.waveform.encode, .single c.amplitude, .single c.offset,
    .single c.frequency, .single c.rate, ofCount c.chunk, ofOptional ofCount c.triggerEvery,
    .text c.trigger, ofOptional ofCount c.limit, .bool c.paced]

/-- A configuration is written field by field. -/
lemma encode_eq (c : GeneratorConfig) : c.encode = .record (fieldNames.zip c.values) := rfl

/-- Every field is read back. -/
lemma isField_of_mem_values {c : GeneratorConfig}
    (hcounts : ∀ n ∈ c.counts, (n : Int) < integerBound)
    (hfinite : ∀ x ∈ c.numbers, x.isFinite = true) (hnumbers : ∀ x ∈ c.numbers, f.Keeps x) :
    ∀ d ∈ c.values, f.IsField d := by
  simp only [counts, List.mem_cons, List.mem_append, Option.mem_toList] at hcounts
  have hnumber : ∀ x ∈ c.numbers, f.IsField (.single x) := fun x hx =>
    Format.isField_single (hfinite x hx) (hnumbers x hx)
  have hevery : f.IsField (ofOptional ofCount c.triggerEvery) :=
    Format.isField_optional fun n hn => Format.isField_count (hcounts n (.inr (.inl hn)))
  have hlimit : f.IsField (ofOptional ofCount c.limit) :=
    Format.isField_optional fun n hn => Format.isField_count (hcounts n (.inr (.inr hn)))
  have hchunk : f.IsField (ofCount c.chunk) := Format.isField_count (hcounts _ (.inl rfl))
  simp only [numbers, List.mem_cons, List.not_mem_nil, or_false, forall_eq_or_imp, forall_eq]
    at hnumber
  simp [values, Format.isField_text, Format.isField_bool, Waveform.encode, hnumber, hevery, hlimit,
    hchunk]

/-- A configuration is read back, up to the defaults that TOML fills in. -/
lemma decode_item {c : GeneratorConfig} (hcounts : ∀ n ∈ c.counts, (n : Int) < integerBound)
    (hfinite : ∀ x ∈ c.numbers, x.isFinite = true) (hnumbers : ∀ x ∈ c.numbers, f.Keeps x) :
    decode f.convention (f.item c.encode) = some (c.storedAs f) := by
  have hfields := Format.fields_item fieldNames_ok rfl
    (isField_of_mem_values (f := f) hcounts hfinite hnumbers)
  simp only [counts, List.mem_cons, List.mem_append, Option.mem_toList] at hcounts
  simp only [numbers, List.mem_cons, List.not_mem_nil, or_false, forall_eq_or_imp, forall_eq]
    at hnumbers
  obtain ⟨hamplitude, hoffset, hfrequency, hrate⟩ := hnumbers
  have hchunk := hcounts _ (.inl rfl)
  have hevery := Format.orDefault_optionalCount (f := f) (some 1000)
    fun n hn => hcounts n (.inr (.inl hn))
  have hlimit := Format.orDefault_optionalCount (f := f) none
    fun n hn => hcounts n (.inr (.inr hn))
  rw [encode_eq, decode, hfields, values, bind_of_eq_some rfl]
  dsimp only [List.map]
  rw [bind_of_eq_some (Format.orDefault_text _ _), bind_of_eq_some (Format.orDefault_text _ _),
    bind_of_eq_some (Format.orDefault_waveform _ _),
    bind_of_eq_some (Format.orDefault_single _ hamplitude),
    bind_of_eq_some (Format.orDefault_single _ hoffset),
    bind_of_eq_some (Format.orDefault_single _ hfrequency),
    bind_of_eq_some (Format.orDefault_single _ hrate),
    bind_of_eq_some (Format.orDefault_count _ hchunk), bind_of_eq_some hevery,
    bind_of_eq_some (Format.orDefault_text _ _), bind_of_eq_some hlimit,
    bind_of_eq_some (Format.orDefault_bool _ _)]
  rfl

/-- A configuration is loaded as it was saved, unless TOML leaves out that it has no triggers. -/
lemma storedAs_eq_self_iff (f : Format) (c : GeneratorConfig) :
    c.storedAs f = c ↔ f = .json ∨ c.triggerEvery ≠ none := by
  cases f with
  | json => exact ⟨fun _ => .inl rfl, fun _ => rfl⟩
  | toml =>
    obtain ⟨signal, unit, waveform, amplitude, offset, frequency, rate, chunk, every, trigger,
      limit, paced⟩ := c
    cases every <;> simp [storedAs, Format.restored]

end GeneratorConfig

/-! ### Whole configurations -/

namespace AppConfig

variable {f : Format} {c : AppConfig}

/-- The whole numbers of a configuration. -/
def counts (c : AppConfig) : List Nat :=
  c.runTime :: (c.worker.counts ++ c.generators.flatMap GeneratorConfig.counts)

/-- The numbers of a configuration that may have a fraction. -/
def numbers (c : AppConfig) : List Single := c.generators.flatMap GeneratorConfig.numbers

/-- What a configuration is loaded as. -/
def storedAs (f : Format) (c : AppConfig) : AppConfig :=
  let standard : AppConfig := {}
  { c with
    generators := c.generators.map (GeneratorConfig.storedAs f)
    logFile := f.restored standard.logFile c.logFile }

/-- **A configuration is loaded as it was saved, unless TOML leaves out that a generator has no
triggers.** -/
theorem storedAs_eq_self_iff (f : Format) (c : AppConfig) :
    c.storedAs f = c ↔ f = .json ∨ ∀ g ∈ c.generators, g.triggerEvery ≠ none := by
  have hlog : f.restored none c.logFile = c.logFile := by
    cases f with
    | json => rfl
    | toml => exact Option.or_none
  have hgenerators : c.storedAs f = c ↔ c.generators.map (GeneratorConfig.storedAs f) =
      c.generators := by
    obtain ⟨worker, generators, runTime, logFile⟩ := c
    simp only [storedAs, hlog, mk.injEq, true_and, and_true]
  have hmap : c.generators.map (GeneratorConfig.storedAs f) = c.generators ↔
      ∀ g ∈ c.generators, g.storedAs f = g := by
    conv_lhs => rhs; rw [← List.map_id c.generators]
    rw [List.map_inj_left]
    rfl
  rw [hgenerators, hmap]
  simp only [GeneratorConfig.storedAs_eq_self_iff]
  by_cases hf : f = .json <;> simp [hf]

/-- The fields have plain and distinct names. -/
lemma fieldNames_ok : Format.FieldNames fieldNames := ⟨by decide, by decide⟩

/-- The values of the fields, in order. -/
def values (c : AppConfig) : List Document :=
  [c.worker.encode, .list (c.generators.map GeneratorConfig.encode), ofCount c.runTime,
    ofOptional .text c.logFile]

section Saved

variable (hcounts : ∀ n ∈ c.counts, (n : Int) < integerBound)
  (hfinite : ∀ x ∈ c.numbers, x.isFinite = true) (hnumbers : ∀ x ∈ c.numbers, f.Keeps x)

include hcounts in
/-- The whole numbers of the worker and of each generator are in range. -/
lemma parts_counts : (c.runTime : Int) < integerBound ∧
    (∀ n ∈ c.worker.counts, (n : Int) < integerBound) ∧
      ∀ g ∈ c.generators, ∀ n ∈ g.counts, (n : Int) < integerBound := by
  refine ⟨hcounts _ (by simp [counts]), fun n hn => hcounts n (by simp [counts, hn]), ?_⟩
  intro g hg n hn
  refine hcounts n ?_
  simp only [counts, List.mem_cons, List.mem_append, List.mem_flatMap]
  exact .inr (.inr ⟨g, hg, hn⟩)

include hcounts hfinite hnumbers in
/-- Every field is read back. -/
lemma isMember_of_mem_values : ∀ d ∈ c.values, f.IsMember d := by
  obtain ⟨htime, hworker, hgenerators⟩ := parts_counts hcounts
  have hparts : ∀ g ∈ c.generators, ∀ x ∈ g.numbers, x ∈ c.numbers := fun g hg x hx =>
    List.mem_flatMap.mpr ⟨g, hg, hx⟩
  have hlist : f.IsMember (.list (c.generators.map GeneratorConfig.encode)) := by
    apply Format.isMember_list
    intro d hd
    obtain ⟨g, hg, rfl⟩ := List.mem_map.mp hd
    exact Format.isTable_record GeneratorConfig.fieldNames_ok rfl
      (GeneratorConfig.isField_of_mem_values (hgenerators g hg)
        (fun x hx => hfinite x (hparts g hg x hx)) fun x hx => hnumbers x (hparts g hg x hx))
  have hrecord : f.IsMember c.worker.encode :=
    (Format.isTable_record WorkerConfig.fieldNames_ok rfl
      (WorkerConfig.isField_of_mem_values hworker)).isMember
  have hlog : f.IsMember (ofOptional .text c.logFile) :=
    (Format.isField_optional fun s _ => Format.isField_text s).isMember
  simp [values, hrecord, hlist, hlog, (Format.isField_count htime).isMember]

include hcounts hfinite hnumbers in
/-- The generators are read back one by one. -/
lemma decode_generators :
    toListOf (GeneratorConfig.decode f.convention)
        (.list ((c.generators.map GeneratorConfig.encode).map f.item)) =
      some (c.generators.map (GeneratorConfig.storedAs f)) := by
  obtain ⟨-, -, hgenerators⟩ := parts_counts hcounts
  have heach : ∀ g ∈ c.generators,
      GeneratorConfig.decode f.convention (f.item g.encode) = some (g.storedAs f) := by
    intro g hg
    exact GeneratorConfig.decode_item (hgenerators g hg)
      (fun x hx => hfinite x (List.mem_flatMap.mpr ⟨g, hg, hx⟩))
      fun x hx => hnumbers x (List.mem_flatMap.mpr ⟨g, hg, hx⟩)
  rw [toListOf, List.map_map]
  generalize c.generators = gs at heach
  induction gs with
  | nil => rfl
  | cons g gs ih =>
    rw [List.map_cons, List.mapM_cons, Function.comp_apply, heach g (by simp),
      ih fun e he => heach e (by simp [he])]
    rfl

include hcounts hfinite hnumbers in
/-- What was read under the names of the fields makes the configuration. -/
lemma decode_of_fields {d : Document}
    (h : d.fields f.convention fieldNames = some (c.values.map f.field)) :
    decode f.convention d = some (c.storedAs f) := by
  obtain ⟨htime, hworker, -⟩ := parts_counts hcounts
  have hrecord (standard) : orDefault standard (WorkerConfig.decode f.convention)
      (f.field c.worker.encode) = some c.worker := by
    rw [WorkerConfig.encode_eq, Format.field_record, ← WorkerConfig.encode_eq, orDefault,
      WorkerConfig.decode_item hworker]
  have hlist (standard) :
      orDefault standard (toListOf (GeneratorConfig.decode f.convention))
          (f.field (.list (c.generators.map GeneratorConfig.encode))) =
        some (c.generators.map (GeneratorConfig.storedAs f)) := by
    rw [Format.field_list, orDefault, decode_generators hcounts hfinite hnumbers]
  rw [decode, h, values, bind_of_eq_some rfl]
  dsimp only [List.map]
  rw [bind_of_eq_some (hrecord _), bind_of_eq_some (hlist _),
    bind_of_eq_some (Format.orDefault_count _ htime),
    bind_of_eq_some (Format.orDefault_optionalText _ _)]
  rfl

include hcounts hfinite hnumbers in
/-- The text of a configuration is read back. -/
lemma exists_render : ∃ text, c.render f = some text ∧ parse f text = some (c.storedAs f) := by
  obtain ⟨text, d, hrender, hread, hfields⟩ := Format.read_render (f := f) fieldNames_ok rfl
    (isMember_of_mem_values hcounts hfinite hnumbers)
  refine ⟨text, hrender, ?_⟩
  rw [parse, hread, Option.bind_some, decode_of_fields hcounts hfinite hnumbers hfields]

end Saved

variable {files files' : Files} {path : String}

/-- What saving does: the text of the configuration is written. -/
lemma save_eq_ok (h : c.save files path = .ok files') :
    ∃ text, c.render (.ofPath path) = some text ∧
      files.write? path (Text.Utf8.encode text.toList) = some files' := by
  unfold save at h
  split at h
  · cases h
  split at h
  · cases h
  · rename_i text htext
    split at h
    · cases h
    · rename_i written hwrite
      cases h
      exact ⟨text, htext, hwrite⟩

/-- **What is loaded after saving.** -/
theorem load_of_save (hvalid : c.worker.validate = .ok ())
    (hcounts : ∀ n ∈ c.counts, (n : Int) < integerBound)
    (hfinite : ∀ x ∈ c.numbers, x.isFinite = true)
    (hnumbers : ∀ x ∈ c.numbers, (Format.ofPath path).Keeps x)
    (hsave : c.save files path = .ok files') :
    load files' path = .ok (c.storedAs (.ofPath path)) := by
  obtain ⟨text, hrender, hwrite⟩ := save_eq_ok hsave
  obtain ⟨text', hrender', hparse⟩ := exists_render hcounts hfinite hnumbers
  rw [hrender] at hrender'
  cases hrender'
  have hworker : (c.storedAs (.ofPath path)).worker = c.worker := rfl
  rw [load, Files.readText?_write? hwrite]
  dsimp only
  rw [hparse]
  dsimp only
  rw [hworker, hvalid]
  rfl

/-- Where there are no files, a configuration can be saved. -/
lemma exists_save_empty (hpath : Path.isDirectory path = false)
    (hcounts : ∀ n ∈ c.counts, (n : Int) < integerBound)
    (hfinite : ∀ x ∈ c.numbers, x.isFinite = true)
    (hnumbers : ∀ x ∈ c.numbers, (Format.ofPath path).Keeps x) :
    ∃ files', c.save {} path = .ok files' := by
  obtain ⟨text, hrender, -⟩ := exists_render hcounts hfinite hnumbers
  obtain ⟨written, hwrite⟩ := Files.exists_write?_empty hpath (Text.Utf8.encode text.toList)
  refine ⟨written, ?_⟩
  simp [save, Files.hasRoomFor_empty, hrender, hwrite]

/-- **Loading what was saved.** The worker, the signals and all numbers are the same again. The
configuration as a whole is the same exactly if the file is JSON or every generator has triggers:
TOML leaves out that a generator has none, and the reader fills in the default distance. -/
theorem load_save (hvalid : c.worker.validate = .ok ())
    (hcounts : ∀ n ∈ c.counts, (n : Int) < integerBound)
    (hfinite : ∀ x ∈ c.numbers, x.isFinite = true)
    (hnumbers : ∀ x ∈ c.numbers, (Format.ofPath path).Keeps x)
    (hsave : c.save files path = .ok files') :
    load files' path = .ok (c.storedAs (.ofPath path)) ∧
      (load files' path = .ok c ↔
        Format.ofPath path = .json ∨ ∀ g ∈ c.generators, g.triggerEvery ≠ none) := by
  have hload := load_of_save hvalid hcounts hfinite hnumbers hsave
  refine ⟨hload, ?_⟩
  rw [hload, Except.ok.injEq]
  exact storedAs_eq_self_iff (.ofPath path) c

/-- A configuration with one generator, which has no triggers. -/
def untriggered : AppConfig where
  generators := [{
    signal := "voltage"
    amplitude := ⟨0x3f800000⟩
    offset := ⟨0⟩
    frequency := ⟨0x41200000⟩
    rate := ⟨0x447a0000⟩
    triggerEvery := none
    limit := some 5000 }]
  logFile := some "daq.log"

/-- The whole numbers of this configuration are in range. -/
lemma untriggered_counts : ∀ n ∈ untriggered.counts, (n : Int) < integerBound := by decide

/-- The numbers of this configuration are finite. -/
lemma untriggered_finite : ∀ x ∈ untriggered.numbers, x.isFinite = true := by decide +kernel

/-- The numbers of this configuration are kept. -/
lemma untriggered_keeps : ∀ x ∈ untriggered.numbers, (Format.ofPath "c.toml").Keeps x := by
  decide +kernel

/-- The general statement for this configuration in TOML. -/
theorem load_save_untriggered : ∃ files', untriggered.save {} "c.toml" = .ok files' ∧
    load files' "c.toml" = .ok (untriggered.storedAs (.ofPath "c.toml")) ∧
      (load files' "c.toml" = .ok untriggered ↔ Format.ofPath "c.toml" = .json ∨
        ∀ g ∈ untriggered.generators, g.triggerEvery ≠ none) := by
  obtain ⟨files', hsave⟩ := exists_save_empty (by decide) untriggered_counts untriggered_finite
    untriggered_keeps
  exact ⟨files', hsave, load_save rfl untriggered_counts untriggered_finite untriggered_keeps hsave⟩

/-- This configuration is saved in TOML, but another one is loaded. -/
theorem load_ne_of_save_untriggered : ∃ files', untriggered.save {} "c.toml" = .ok files' ∧
    load files' "c.toml" ≠ .ok untriggered := by
  obtain ⟨files', hsave⟩ := exists_save_empty (by decide) untriggered_counts untriggered_finite
    untriggered_keeps
  refine ⟨files', hsave, ?_⟩
  have hstored : untriggered.storedAs .toml ≠ untriggered := by
    rw [ne_eq, storedAs_eq_self_iff]
    decide
  rw [load_of_save rfl untriggered_counts untriggered_finite untriggered_keeps hsave]
  intro heq
  exact hstored (Except.ok.inj heq)

end AppConfig

end Daq
