import Daq.Proofs.Reconciler.Course
import Daq.Proofs.Reconciler.Emissions
import Mathlib.Data.List.Induction

set_option autoImplicit false

/-!
# The history of a stream

The tags of a stream describe it, and what they reported last goes into every reply. Here everything
that a reconciler ever took from a queue is written down, with the key and the poller it was taken
for, and beside it everything that it notified of. The description in a reply is then the history of
one poller: what the tags of its blocks have reported up to that block. A key that is given up and
asked for again has another poller, and the history of that one begins anew.

## Main definitions

* `Daq.Taking` — an item that was taken from a queue.
* `Daq.Pass.takings`, `Daq.Reconciler.takings` — what a walk and a pass take.
* `Daq.history` — what the tags of consecutive blocks report.
* `Daq.described` — the history of a poller in a log of takings.
* `Daq.Diary`, `Daq.Diary.run` — a course with its log.

## Main results

* `Daq.Descriptor.update_eq` — what tags report, field by field.
* `Daq.Reconciler.Recorded.visit` — one stop of the walk keeps descriptions and log in agreement.
* `Daq.Reconciler.Since.visit` — a key that was given up gets another poller.
* `Daq.Diary.descriptions_exact` — descriptions in every course.
-/

namespace Daq

/-! ### What tags report -/

/-- The text under a name, unless the property is missing, empty, or not a text. -/
def Tag.said (t : Tag) (name : String) : Option String :=
  match t.get? name with
  | some (.text s) => if s = "" then none else some s
  | _ => none

/-- The number under a name in single precision, unless the property is missing or not a number. -/
def Tag.measured (t : Tag) (name : String) : Option Single :=
  match t.get? name with
  | some (.float x) => some x.narrow
  | some (.int n) => some (Double.ofInt n).narrow
  | _ => none

/-- What the last tag says that says anything. -/
def lastOf {α : Type} (f : Tag → Option α) (tags : List Tag) : Option α :=
  (tags.filterMap f).getLast?

/-- One more tag says the last of it, if it says anything. -/
lemma lastOf_append {α : Type} (f : Tag → Option α) (tags : List Tag) (t : Tag) :
    lastOf f (tags ++ [t]) = (f t).or (lastOf f tags) := by
  unfold lastOf
  rw [List.filterMap_append]
  cases ht : f t with
  | none => simp [ht]
  | some a => simp [ht]

namespace Descriptor

/-- What one tag reports, field by field. -/
lemma updateWith_eq (d : Descriptor) (t : Tag) :
    d.updateWith t =
      { name := (t.said Tag.signalName).getD d.name
        unit := (t.said Tag.signalUnit).getD d.unit
        min := (t.measured Tag.signalMin).getD d.min
        max := (t.measured Tag.signalMax).getD d.max } := by
  have hsaid : ∀ name, reported? t name = t.said name := by
    intro name
    unfold reported? Tag.text? Tag.said
    cases t.get? name with
    | none => rfl
    | some v =>
      cases v with
      | text s => by_cases hs : s = "" <;> simp [Property.text?, Option.filter, hs]
      | bool b => rfl
      | int n => rfl
      | float x => rfl
  have hmeasured : ∀ name, (t.number? name).map Double.narrow = t.measured name := by
    intro name
    unfold Tag.number? Tag.measured
    cases t.get? name with
    | none => rfl
    | some v => cases v <;> rfl
  unfold updateWith
  rw [hsaid, hsaid, hmeasured, hmeasured]

/-- **What tags report, field by field**: the last tag with something to say decides, and the others
leave the field as it is. -/
theorem update_eq (d : Descriptor) (tags : List Tag) :
    d.update tags =
      { name := (lastOf (fun t => t.said Tag.signalName) tags).getD d.name
        unit := (lastOf (fun t => t.said Tag.signalUnit) tags).getD d.unit
        min := (lastOf (fun t => t.measured Tag.signalMin) tags).getD d.min
        max := (lastOf (fun t => t.measured Tag.signalMax) tags).getD d.max } := by
  induction tags using List.reverseRecOn with
  | nil => rfl
  | append_singleton tags t ih =>
    have hlast : d.update (tags ++ [t]) = (d.update tags).updateWith t := List.foldl_append
    rw [hlast, updateWith_eq, ih]
    simp only [lastOf_append]
    congr 1 <;> exact (Option.getD_or ..).symm

end Descriptor

/-- What the tags of consecutive blocks report of a signal that was unknown before. -/
def history (signal : String) (blocks : List Block) : Descriptor :=
  blocks.foldl (fun d b => d.update b.tags) (.unknown signal)

/-- The history of blocks is what all their tags report, one after the other. -/
lemma history_eq (signal : String) (blocks : List Block) :
    history signal blocks = (Descriptor.unknown signal).update (blocks.flatMap fun b => b.tags) := by
  unfold history Descriptor.update
  rw [List.foldl_flatMap]

/-! ### Takings -/

/-- The block of an item, if it is one. -/
def Item.block? : Item → Option Block
  | .block b => some b
  | .capture _ => none

/-- An item that was taken from the queue of a poller, for a key. -/
structure Taking where
  /-- The key. -/
  key : PollerKey
  /-- The poller. -/
  poller : PollerRef
  /-- The item. -/
  item : Item
  deriving DecidableEq

/-- The blocks that were taken from a poller. -/
def blocksOf (p : PollerRef) (log : List Taking) : List Block :=
  log.filterMap fun x => if x.poller = p then x.item.block? else none

/-- What the blocks taken from a poller have reported, as the poller of a key. -/
def described (k : PollerKey) (p : PollerRef) (log : List Taking) : Descriptor :=
  history k.signal (blocksOf p log)

/-- The keys and replies for takings that come after others. -/
def tellings (before : List Taking) : List Taking → List (Option PollerKey × Reply)
  | [] => []
  | x :: rest =>
    (some x.key, (answer (described x.key x.poller before) x.item).1) ::
      tellings (before ++ [x]) rest

section Takings

variable (k : PollerKey) (p : PollerRef) (before : List Taking)

/-- The blocks of two stretches of takings. -/
lemma blocksOf_append (xs ys : List Taking) :
    blocksOf p (xs ++ ys) = blocksOf p xs ++ blocksOf p ys := List.filterMap_append

/-- What is taken from other pollers does not count. -/
lemma described_of_ne {taken : List Taking} (hne : ∀ x ∈ taken, x.poller ≠ p) :
    described k p (before ++ taken) = described k p before := by
  have hnone : blocksOf p taken = [] := by
    unfold blocksOf
    rw [List.filterMap_eq_nil_iff]
    intro x hx
    rw [if_neg (hne x hx)]
  rw [described, described, blocksOf_append, hnone, List.append_nil]

/-- A poller that nothing was taken from is not described yet. -/
lemma described_of_new {log : List Taking} (hnew : ∀ x ∈ log, x.poller ≠ p) :
    described k p log = .unknown k.signal := described_of_ne k p [] hnew

/-- The answer to a taking leaves the description that counts the taking in. -/
lemma answer_described (x : Item) :
    (answer (described k p before) x).2 = described k p (before ++ [⟨k, p, x⟩]) := by
  cases x with
  | block b => simp [answer, described, history, blocksOf, Item.block?]
  | capture c => simp [answer, described, history, blocksOf, Item.block?]

/-- The answers to what is taken from one poller are told one by one, and they leave the description
that counts all of it in. -/
lemma answers_described (items : List Item) :
    (answers (described k p before) items).1.map (fun reply => (some k, reply)) =
        tellings before (items.map fun x => ⟨k, p, x⟩) ∧
      (answers (described k p before) items).2 =
        described k p (before ++ items.map fun x => ⟨k, p, x⟩) := by
  induction items generalizing before with
  | nil => exact ⟨rfl, by simp [answers]⟩
  | cons x items ih =>
    obtain ⟨htold, hafter⟩ := ih (before ++ [⟨k, p, x⟩])
    simp only [answers, answer_described, List.map_cons, tellings]
    refine ⟨by rw [htold], ?_⟩
    rw [hafter, List.append_assoc, List.singleton_append]

end Takings

/-- What is told of two stretches of takings. -/
lemma tellings_append (before xs ys : List Taking) :
    tellings before (xs ++ ys) = tellings before xs ++ tellings (before ++ xs) ys := by
  induction xs generalizing before with
  | nil => simp [tellings]
  | cons x xs ih => simp [tellings, ih]

/-- Every taking is told once. -/
lemma length_tellings (before xs : List Taking) : (tellings before xs).length = xs.length := by
  induction xs generalizing before with
  | nil => rfl
  | cons x xs ih => simp [tellings, ih]

/-- What is told of one of the takings. -/
lemma getElem?_tellings (xs : List Taking) (x : Taking) (ys : List Taking) :
    (tellings [] (xs ++ x :: ys))[xs.length]? =
      some (some x.key, (answer (described x.key x.poller xs) x.item).1) := by
  rw [tellings_append, ← length_tellings [] xs, List.getElem?_append_right (le_refl _),
    Nat.sub_self, List.nil_append]
  rfl

/-! ### Takings of a pass -/

/-- What a collector takes from the queue of a poller. -/
def Hub.drained (h : Hub) (p : PollerRef) : List Item :=
  match h.tap? p with
  | some t =>
    match t.outlet with
    | .stream q => (q.drain batchSize).1.map .block
    | .captures _ q => (q.drain batchSize).1.map .capture
  | none => []

/-- A collector takes everything that is there. -/
lemma Hub.drained_eq (h : Hub) (p : PollerRef) : h.drained p = h.items p := by
  have hbatch : 0 < batchSize := by decide
  unfold drained items
  cases h.tap? p with
  | none => rfl
  | some t =>
    cases ho : t.outlet with
    | stream q => simp [ho, Queue.drain_eq _ hbatch, Outlet.items]
    | captures o q => simp [ho, Queue.drain_eq _ hbatch, Outlet.items]

namespace Pass

/-- What a stop of the walk takes. -/
def taking (grant : Grant) (flush : Bool) (p : Pass) (v : Visit) : List Taking :=
  let q := p.ensure grant flush v.key
  match q.reconciler.held? v.key with
  | some e => (q.hub.drained e.poller).map fun x => ⟨v.key, e.poller, x⟩
  | none => []

/-- What a walk takes. -/
def takings (grant : Grant) (flush : Bool) (p : Pass) : List Visit → List Taking
  | [] => []
  | v :: vs => p.taking grant flush v ++ (p.visit grant flush v).takings grant flush vs

end Pass

namespace Reconciler

/-- What a pass takes. -/
def takings (r : Reconciler) (grant : Grant) (flush : Bool) (h : Hub) (topics : List Topic) :
    List Taking :=
  (r.begin h topics).takings grant flush (visits r.service topics)

/-! ### Descriptions and log -/

/-- The description of every key is the history of its poller. -/
structure Recorded (r : Reconciler) (h : Hub) (log : List Taking) : Prop where
  /-- The reconciler is sound. -/
  sound : r.Sound h
  /-- Descriptions are histories. -/
  reported : ∀ k e, r.held? k = some e → e.reported = described k e.poller log
  /-- Items are taken from pollers that were attached. -/
  attached : ∀ x ∈ log, h.Attached x.poller
  /-- For continuous keys blocks are taken, for the others captures. -/
  kinds : ∀ x ∈ log, x.item.isBlock = !x.key.mode.isDataset

namespace Recorded

variable {r r' : Reconciler} {h h' : Hub} {log : List Taking}

/-- What changes neither pollers nor descriptions keeps the agreement, also where entries are given
up. -/
lemma of_sub (hr : r.Recorded h log) (hsound : r'.Sound h')
    (hheld : ∀ k e, r'.held? k = some e →
      ∃ e₀, r.held? k = some e₀ ∧ e₀.poller = e.poller ∧ e₀.reported = e.reported)
    (hattached : ∀ p, h.Attached p → h'.Attached p) : r'.Recorded h' log where
  sound := hsound
  reported k e he := by
    obtain ⟨e₀, he₀, hpoller, hreported⟩ := hheld k e he
    rw [← hreported, ← hpoller]
    exact hr.reported k e₀ he₀
  attached x hx := hattached _ (hr.attached x hx)
  kinds := hr.kinds

section Pass

variable {p : Pass}

/-- What a visit takes goes into the history of the poller. -/
lemma serve (hp : p.reconciler.Recorded p.hub log) {v : Visit} {e : Entry}
    (he : p.reconciler.held? v.key = some e) :
    (p.serve v).reconciler.Recorded (p.serve v).hub
      (log ++ (p.hub.drained e.poller).map fun x => ⟨v.key, e.poller, x⟩) := by
  rw [Hub.drained_eq]
  have hserves := hp.sound.serves v.key e he
  obtain ⟨-, hafter⟩ := answers_described v.key e.poller log (p.hub.items e.poller)
  have hhub : (p.serve v).hub = p.hub.emptied e.poller := by rw [Pass.serve_eq hp.sound he]
  have hattached : ∀ q, p.hub.Attached q → (p.serve v).hub.Attached q := by
    intro q hq
    rw [hhub]
    exact ((p.hub.consumed_emptied e.poller).attached q).mpr hq
  refine ⟨hp.sound.serve v, fun j f hf => ?_, ?_, ?_⟩
  · rw [Pass.held?_serve hp.sound he] at hf
    split at hf
    · rename_i hj
      cases hf
      rw [hj, hp.reported v.key e he, hafter]
    · rename_i hj
      rw [described_of_ne]
      · exact hp.reported j f hf
      · intro x hx
        obtain ⟨y, -, rfl⟩ := List.mem_map.mp hx
        exact fun hpoller => hj (hp.sound.distinct j v.key f e hf he hpoller.symm)
  · intro x hx
    rcases List.mem_append.mp hx with hx | hx
    · exact hattached _ (hp.attached x hx)
    · obtain ⟨y, -, rfl⟩ := List.mem_map.mp hx
      exact hattached _ (hserves.attached hp.sound.wellFormed)
  · intro x hx
    rcases List.mem_append.mp hx with hx | hx
    · exact hp.kinds x hx
    · obtain ⟨y, hy, rfl⟩ := List.mem_map.mp hx
      exact hserves.isBlock_of_mem hy

variable {grant : Grant} (hg : grant.Lawful) (flush : Bool)

include hg

/-- A new poller begins a new history. -/
lemma ensure (hp : p.reconciler.Recorded p.hub log) (k : PollerKey) :
    (p.ensure grant flush k).reconciler.Recorded (p.ensure grant flush k).hub log := by
  have hsound := hp.sound.ensure hg flush k
  obtain ⟨-, heq⟩ | ⟨-, -, e, -, heq⟩ | ⟨-, -, q, h', hok, heq⟩ := p.ensure_cases grant flush k
  · rwa [heq]
  · rw [heq] at hsound ⊢
    exact hp.of_sub hsound (fun _ e he => ⟨e, he, rfl, rfl⟩) fun _ ha => ha
  · rw [heq] at hsound ⊢
    obtain ⟨hev, hnew, -, -⟩ := hg p.hub h' k q hp.sound.wellFormed hok
    refine ⟨hsound, fun j e he => ?_, fun y hy => hev.attached (hp.attached y hy), hp.kinds⟩
    dsimp only at he
    rw [held?_enter] at he
    split at he
    · rename_i hjk
      cases he
      rw [hjk, described_of_new]
      rintro y hy rfl
      exact hnew (hp.attached y hy)
    · exact hp.reported j e he

/-- **One stop of the walk** tells what it takes as the histories ask for, and keeps descriptions and
log in agreement. -/
theorem visit (hp : p.reconciler.Recorded p.hub log) (v : Visit) :
    (p.visit grant flush v).reconciler.Recorded (p.visit grant flush v).hub
        (log ++ p.taking grant flush v) ∧
      (p.emission grant flush v).map (fun e => (some e.1, e.2)) =
        tellings log (p.taking grant flush v) := by
  have hq := hp.ensure hg flush v.key
  rw [Pass.emission_eq hp.sound hg, ← Pass.pending_ensure hp.sound hg flush v.key v.key]
  unfold Pass.visit Pass.taking pending
  dsimp only
  cases he : (p.ensure grant flush v.key).reconciler.held? v.key with
  | none =>
    rw [Pass.serve_eq_self he]
    exact ⟨by simpa using hq, rfl⟩
  | some e =>
    refine ⟨hq.serve he, ?_⟩
    dsimp only
    obtain ⟨htold, -⟩ := answers_described v.key e.poller log
      ((p.ensure grant flush v.key).hub.items e.poller)
    rw [Hub.drained_eq, ← htold, hq.reported v.key e he, List.map_map]
    rfl

/-- A walk does as well. -/
lemma walk (vs : List Visit) (hp : p.reconciler.Recorded p.hub log) :
    (vs.foldl (Pass.visit grant flush) p).reconciler.Recorded
        (vs.foldl (Pass.visit grant flush) p).hub (log ++ p.takings grant flush vs) ∧
      (p.emissions grant flush vs).map (fun e => (some e.1, e.2)) =
        tellings log (p.takings grant flush vs) := by
  induction vs generalizing p log with
  | nil => exact ⟨by simpa [Pass.takings] using hp, rfl⟩
  | cons v vs ih =>
    obtain ⟨hone, htold⟩ := hp.visit hg flush v
    obtain ⟨hrest, htold'⟩ := ih hone
    rw [Pass.takings, tellings_append, Pass.emissions, List.map_append, htold, htold',
      ← List.append_assoc]
    exact ⟨hrest, rfl⟩

end Pass

/-- **A pass** tells what it takes as the histories ask for, and keeps descriptions and log in
agreement. -/
theorem pass (hr : r.Recorded h log) {grant : Grant} (hg : grant.Lawful) (flush : Bool)
    (topics : List Topic) :
    (r.pass grant flush h topics).reconciler.Recorded (r.pass grant flush h topics).hub
        (log ++ r.takings grant flush h topics) ∧
      (r.pass grant flush h topics).told = tellings log (r.takings grant flush h topics) := by
  have hbegin : (r.begin h topics).reconciler.Recorded (r.begin h topics).hub log := by
    refine hr.of_sub (hr.sound.begin topics) (fun k e he => ?_) fun _ ha => ha
    rw [held?_begin] at he
    obtain ⟨e₀, he₀, rfl⟩ := Option.map_eq_some_iff.mp he
    exact ⟨e₀, he₀, rfl, rfl⟩
  obtain ⟨hwalk, htold⟩ := hbegin.walk hg flush (visits r.service topics)
  obtain ⟨hreconciler, hhub⟩ := r.pass_eq grant flush h topics
  refine ⟨?_, (r.told_pass grant flush h topics).trans htold⟩
  rw [hreconciler, hhub]
  refine hwalk.of_sub hwalk.sound.evict (fun k e he => ?_) fun q hq => ?_
  · rw [held?_evict, Option.filter_eq_some_iff] at he
    exact ⟨e, he.1, rfl, rfl⟩
  · exact ((Hub.touched_releaseAll _ _).attached q).mpr hq

end Recorded

/-! ### Keys that were given up -/

/-- What has become of a key without a poller since the hub was `h₀`: it has none, or one that was
not attached then. -/
structure Since (h₀ : Hub) (k : PollerKey) (r : Reconciler) (h : Hub) : Prop where
  /-- Numbers are given away once. -/
  grown : ∀ p, h₀.Attached p → h.Attached p
  /-- The poller is a new one. -/
  fresh : ∀ e, r.held? k = some e → ¬ h₀.Attached e.poller

namespace Since

variable {h₀ h h' : Hub} {k : PollerKey} {r r' : Reconciler}

/-- What replaces no poller keeps the others apart from the earlier ones. -/
lemma of_sub (hr : Since h₀ k r h)
    (hheld : ∀ e, r'.held? k = some e → ∃ e₀, r.held? k = some e₀ ∧ e₀.poller = e.poller)
    (hattached : ∀ p, h.Attached p → h'.Attached p) : Since h₀ k r' h' where
  grown p hp := hattached p (hr.grown p hp)
  fresh e he := by
    obtain ⟨e₀, he₀, hpoller⟩ := hheld e he
    rw [← hpoller]
    exact hr.fresh e₀ he₀

section Pass

variable {p : Pass} {grant : Grant} (hg : grant.Lawful) (flush : Bool)

include hg

/-- A request opens a poller that was not attached before. -/
lemma ensure (hp : Since h₀ k p.reconciler p.hub) (hw : p.hub.WellFormed) (j : PollerKey) :
    Since h₀ k (p.ensure grant flush j).reconciler (p.ensure grant flush j).hub := by
  obtain ⟨-, heq⟩ | ⟨-, -, e, -, heq⟩ | ⟨-, -, q, h', hok, heq⟩ := p.ensure_cases grant flush j
  · rwa [heq]
  · rw [heq]
    exact ⟨hp.grown, hp.fresh⟩
  · rw [heq]
    obtain ⟨hev, hnew, -, -⟩ := hg p.hub h' j q hw hok
    refine ⟨fun u hu => hev.attached (hp.grown u hu), fun e he => ?_⟩
    dsimp only at he
    rw [held?_enter] at he
    split at he
    · cases he
      exact fun hold => hnew (hp.grown q hold)
    · exact hp.fresh e he

/-- **One stop of the walk** takes nothing for the key from an earlier poller. -/
theorem visit (hp : Since h₀ k p.reconciler p.hub) (hs : p.reconciler.Sound p.hub) (v : Visit) :
    Since h₀ k (p.visit grant flush v).reconciler (p.visit grant flush v).hub ∧
      ∀ x ∈ p.taking grant flush v, x.key = k → ¬ h₀.Attached x.poller := by
  have hq := hp.ensure hg flush hs.wellFormed v.key
  have hs' := hs.ensure hg flush v.key
  unfold Pass.visit Pass.taking
  dsimp only
  cases he : (p.ensure grant flush v.key).reconciler.held? v.key with
  | none =>
    rw [Pass.serve_eq_self he]
    exact ⟨hq, by simp⟩
  | some e =>
    refine ⟨hq.of_sub (fun f hf => ?_) fun u hu => ?_, fun x hx hxk => ?_⟩
    · rw [Pass.held?_serve hs' he] at hf
      split at hf
      · rename_i hk
        cases hf
        exact ⟨e, hk ▸ he, rfl⟩
      · exact ⟨f, hf, rfl⟩
    · rw [Pass.serve_eq hs' he]
      exact ((Hub.consumed_emptied _ e.poller).attached u).mpr hu
    · obtain ⟨y, -, rfl⟩ := List.mem_map.mp hx
      exact hq.fresh e (hxk ▸ he)

/-- A walk takes nothing for the key from an earlier poller. -/
lemma walk (vs : List Visit) (hp : Since h₀ k p.reconciler p.hub)
    (hs : p.reconciler.Sound p.hub) :
    Since h₀ k (vs.foldl (Pass.visit grant flush) p).reconciler
        (vs.foldl (Pass.visit grant flush) p).hub ∧
      ∀ x ∈ p.takings grant flush vs, x.key = k → ¬ h₀.Attached x.poller := by
  induction vs generalizing p with
  | nil => exact ⟨hp, by simp [Pass.takings]⟩
  | cons v vs ih =>
    obtain ⟨hone, hnew⟩ := hp.visit hg flush hs v
    obtain ⟨hrest, hnew'⟩ := ih hone (hs.visit hg flush v)
    refine ⟨hrest, fun x hx => ?_⟩
    rcases List.mem_append.mp hx with hx | hx
    · exact hnew x hx
    · exact hnew' x hx

end Pass

/-- A pass takes nothing for the key from an earlier poller. -/
lemma pass (hr : Since h₀ k r h) (hs : r.Sound h) {grant : Grant} (hg : grant.Lawful) (flush : Bool)
    (topics : List Topic) :
    Since h₀ k (r.pass grant flush h topics).reconciler (r.pass grant flush h topics).hub ∧
      ∀ x ∈ r.takings grant flush h topics, x.key = k → ¬ h₀.Attached x.poller := by
  have hbegin : Since h₀ k (r.begin h topics).reconciler (r.begin h topics).hub := by
    refine hr.of_sub (fun e he => ?_) fun _ ha => ha
    rw [held?_begin] at he
    obtain ⟨e₀, he₀, rfl⟩ := Option.map_eq_some_iff.mp he
    exact ⟨e₀, he₀, rfl⟩
  obtain ⟨hwalk, hnew⟩ := hbegin.walk hg flush (visits r.service topics) (hs.begin topics)
  obtain ⟨hreconciler, hhub⟩ := r.pass_eq grant flush h topics
  refine ⟨?_, hnew⟩
  rw [hreconciler, hhub]
  refine hwalk.of_sub (fun e he => ?_) fun q hq => ?_
  · rw [held?_evict, Option.filter_eq_some_iff] at he
    exact ⟨e, he.1, rfl⟩
  · exact ((Hub.touched_releaseAll _ _).attached q).mpr hq

end Since

end Reconciler

/-! ### Courses with their log -/

namespace Course

/-- What is taken in a turn. -/
def taken (c : Course) : Turn → List Taking
  | .pass grant flush topics => c.reconciler.takings grant flush c.hub topics
  | .clear => []
  | .act _ => []

/-- What is notified of in a turn. -/
def notified (c : Course) : Turn → List Notification
  | .pass grant flush topics => (c.reconciler.pass grant flush c.hub topics).notifications
  | .clear => []
  | .act _ => []

end Course

/-- A course with everything that was taken and notified of in it. -/
structure Diary where
  /-- The course. -/
  course : Course
  /-- What was taken from queues, in order. -/
  takings : List Taking := []
  /-- The notifications, in order. -/
  notifications : List Notification := []

namespace Diary

/-- One turn. -/
def take (x : Diary) (t : Turn) : Diary where
  course := x.course.take t
  takings := x.takings ++ x.course.taken t
  notifications := x.notifications ++ x.course.notified t

/-- The diary of a course from a reconciler without pollers on. -/
def run (service : String) (h : Hub) (turns : List Turn) : Diary :=
  turns.foldl take { course := ⟨{ service }, h, 0⟩ }

/-- A diary writes down a course and does not change it. -/
lemma course_run (service : String) (h : Hub) (turns : List Turn) :
    (run service h turns).course = Course.run service h turns := by
  have hfold : ∀ x : Diary, (turns.foldl take x).course = turns.foldl Course.take x.course := by
    induction turns with
    | nil => exact fun _ => rfl
    | cons t turns ih => exact fun x => ih (x.take t)
  exact hfold _

/-- More turns. -/
lemma run_append (service : String) (h : Hub) (turns more : List Turn) :
    run service h (turns ++ more) = more.foldl take (run service h turns) := List.foldl_append

/-- Descriptions are histories, and every taking was told as its history asks for. -/
structure Exact (x : Diary) : Prop where
  /-- Descriptions are histories. -/
  recorded : x.course.reconciler.Recorded x.course.hub x.takings
  /-- Replies are told by histories. -/
  told : x.notifications.map (fun n => (n.key?, n.reply)) = tellings [] x.takings

/-- **Every turn keeps a diary exact.** -/
theorem Exact.take {x : Diary} (hx : x.Exact) {t : Turn} (ht : t.Lawful) : (x.take t).Exact := by
  have hsound := hx.recorded.sound
  cases t with
  | pass grant flush topics =>
    obtain ⟨hrecorded, htold⟩ := hx.recorded.pass ht flush topics
    refine ⟨hrecorded, ?_⟩
    change (x.notifications ++ (x.course.reconciler.pass grant flush x.course.hub topics).notifications).map
      _ = tellings [] (x.takings ++ _)
    rw [List.map_append, tellings_append, hx.told]
    exact congrArg _ htold
  | clear =>
    refine ⟨?_, by simpa [Diary.take, Course.taken, Course.notified] using hx.told⟩
    simp only [Diary.take, Course.taken, List.append_nil]
    refine hx.recorded.of_sub hsound.clear (fun k e he => ?_) fun q hq => ?_
    · simp [Course.take] at he
    · exact ((Hub.touched_releaseAll _ _).attached q).mpr hq
  | act a =>
    have hev := x.course.hub.evolves_perform a
    refine ⟨?_, by simpa [Diary.take, Course.taken, Course.notified] using hx.told⟩
    simp only [Diary.take, Course.taken, List.append_nil]
    exact hx.recorded.of_sub (hsound.evolves hev) (fun k e he => ⟨e, he, rfl, rfl⟩)
      fun _ hq => hev.attached hq

/-- Every diary is exact. -/
lemma exact_run (service : String) {h : Hub} (hw : h.WellFormed) {turns : List Turn}
    (hl : ∀ t ∈ turns, t.Lawful) : (run service h turns).Exact := by
  induction turns using List.reverseRecOn with
  | nil =>
    have hsound := Reconciler.sound_empty service hw
    refine ⟨⟨hsound, fun k e he => ?_, by simp [run], by simp [run]⟩, rfl⟩
    have hnone : (run service h []).course.reconciler.held? k = none :=
      Reconciler.held?_empty k service
    rw [hnone] at he
    cases he
  | append_singleton turns t ih =>
    rw [run_append]
    exact (ih fun u hu => hl u (by simp [hu])).take (hl t (by simp))

/-- A key that is given up gets another poller in every later turn. -/
lemma since_turns {h₀ : Hub} {k : PollerKey} (turns : List Turn) (hl : ∀ t ∈ turns, t.Lawful)
    {x : Diary} (hx : x.Exact) (hk : Reconciler.Since h₀ k x.course.reconciler x.course.hub) :
    Reconciler.Since h₀ k (turns.foldl take x).course.reconciler (turns.foldl take x).course.hub ∧
      ∃ since, (turns.foldl take x).takings = x.takings ++ since ∧
        ∀ t ∈ since, t.key = k → ¬ h₀.Attached t.poller := by
  induction turns generalizing x with
  | nil => exact ⟨hk, [], by simp, by simp⟩
  | cons t turns ih =>
    have hsound := hx.recorded.sound
    have hstep : Reconciler.Since h₀ k (x.take t).course.reconciler (x.take t).course.hub ∧
        ∀ u ∈ x.course.taken t, u.key = k → ¬ h₀.Attached u.poller := by
      cases t with
      | pass grant flush topics =>
        have hg : grant.Lawful := hl (.pass grant flush topics) (by simp)
        exact hk.pass hsound hg flush topics
      | clear =>
        refine ⟨hk.of_sub (fun e he => ?_) fun q hq => ?_, by simp [Course.taken]⟩
        · simp [Diary.take, Course.take] at he
        · exact ((Hub.touched_releaseAll _ _).attached q).mpr hq
      | act a =>
        have hev := x.course.hub.evolves_perform a
        exact ⟨hk.of_sub (fun e he => ⟨e, he, rfl⟩) fun _ hq => hev.attached hq,
          by simp [Course.taken]⟩
    obtain ⟨hlast, since, htakings, hnew⟩ :=
      ih (fun u hu => hl u (by simp [hu])) (hx.take (hl t (by simp))) hstep.1
    refine ⟨hlast, x.course.taken t ++ since, ?_, fun u hu => ?_⟩
    · rw [List.foldl_cons, htakings, ← List.append_assoc]
      rfl
    · rcases List.mem_append.mp hu with hu | hu
      · exact hstep.2 u hu
      · exact hnew u hu

section Exact

variable {x : Diary} (hx : x.Exact)

include hx

/-- Every taking has its notification. -/
lemma Exact.length_notifications : x.notifications.length = x.takings.length := by
  have hlength := congrArg List.length hx.told
  rwa [List.length_map, length_tellings] at hlength

/-- The reply to a block of a continuous key carries the history up to that block. -/
lemma Exact.reply {before after : List Taking} {t : Taking}
    (hsplit : x.takings = before ++ t :: after) (hcontinuous : t.key.mode = .continuous) :
    ∃ b n, t.item = .block b ∧ x.notifications[before.length]? = some n ∧ n.key? = some t.key ∧
      n.reply = .ofBlock (history t.key.signal (blocksOf t.poller (before ++ [t]))) b := by
  have hkind := hx.recorded.kinds t (by simp [hsplit])
  have htold : (x.notifications[before.length]?).map (fun n => (n.key?, n.reply)) =
      some (some t.key, (answer (described t.key t.poller before) t.item).1) := by
    rw [← List.getElem?_map, hx.told, hsplit, getElem?_tellings]
  obtain ⟨n, hn, hpair⟩ := Option.map_eq_some_iff.mp htold
  obtain ⟨hkey, hreply⟩ := Prod.mk.inj hpair
  have hafter := answer_described t.key t.poller before t.item
  cases hitem : t.item with
  | capture c =>
    rw [hitem, hcontinuous] at hkind
    cases hkind
  | block b =>
    rw [hitem] at hreply hafter
    refine ⟨b, n, rfl, hn, hkey, hreply.trans ?_⟩
    have hsame : (⟨t.key, t.poller, .block b⟩ : Taking) = t := by rw [← hitem]
    rw [hsame] at hafter
    change Reply.ofBlock (answer _ (.block b)).2 b = _
    rw [hafter]
    rfl

/-- A key without a poller gets another one later on than any that was taken from. -/
lemma Exact.poller_ne {k : PollerKey} (hnone : x.course.reconciler.held? k = none)
    {later : List Turn} (hl : ∀ t ∈ later, t.Lawful) :
    ∃ since, (later.foldl Diary.take x).takings = x.takings ++ since ∧
      (∀ t ∈ since, t.key = k → ∀ u ∈ x.takings, u.poller ≠ t.poller) ∧
      ∀ e, (later.foldl Diary.take x).course.reconciler.held? k = some e →
        ∀ u ∈ x.takings, u.poller ≠ e.poller := by
  have hstart : Reconciler.Since x.course.hub k x.course.reconciler x.course.hub := by
    refine ⟨fun _ ha => ha, fun e he => ?_⟩
    rw [hnone] at he
    cases he
  obtain ⟨hlast, since, htakings, hnew⟩ := since_turns later hl hx hstart
  refine ⟨since, htakings, fun t ht hk u hu heq => ?_, fun e he u hu heq => ?_⟩
  · exact hnew t ht hk (heq ▸ hx.recorded.attached u hu)
  · exact hlast.fresh e he (heq ▸ hx.recorded.attached u hu)

end Exact

/-- **The descriptions of streams are the histories of their pollers, in every course.**

* Every taking has its notification. For a block of a continuous key, the reply carries what the tags
  of all blocks taken from its poller report, up to that block and no further.
* What is kept for the next reply is what all blocks taken from the poller report.
* A key that has no poller at some time, because it was evicted or let go of, has another one later
  on: nothing that was taken before goes into its description.
* The history of blocks starts from a signal that is unknown, and goes field by field: the last tag
  decides that has the property as a text that is not empty, or as a number. -/
theorem descriptions_exact (service : String) (h : Hub) (hw : h.WellFormed) (turns : List Turn)
    (hl : ∀ t ∈ turns, t.Lawful) :
    let x := run service h turns
    x.course = Course.run service h turns ∧
    x.notifications.length = x.takings.length ∧
    (∀ before t after, x.takings = before ++ t :: after → t.key.mode = .continuous →
      ∃ b n, t.item = .block b ∧ x.notifications[before.length]? = some n ∧ n.key? = some t.key ∧
        n.reply = .ofBlock (history t.key.signal (blocksOf t.poller (before ++ [t]))) b) ∧
    (∀ k e, x.course.reconciler.streams.get? k = some e →
      e.reported = history k.signal (blocksOf e.poller x.takings)) ∧
    (∀ earlier later, turns = earlier ++ later →
      let y := run service h earlier
      ∀ k, y.course.reconciler.held? k = none → ∃ since, x.takings = y.takings ++ since ∧
        (∀ t ∈ since, t.key = k → ∀ u ∈ y.takings, u.poller ≠ t.poller) ∧
        ∀ e, x.course.reconciler.held? k = some e → ∀ u ∈ y.takings, u.poller ≠ e.poller) ∧
    (∀ signal blocks, history signal blocks =
      (Descriptor.unknown signal).update (blocks.flatMap fun b => b.tags)) ∧
    ∀ (d : Descriptor) (tags : List Tag), d.update tags =
      { name := (lastOf (fun t => t.said Tag.signalName) tags).getD d.name
        unit := (lastOf (fun t => t.said Tag.signalUnit) tags).getD d.unit
        min := (lastOf (fun t => t.measured Tag.signalMin) tags).getD d.min
        max := (lastOf (fun t => t.measured Tag.signalMax) tags).getD d.max } := by
  intro x
  have hx : x.Exact := exact_run service hw hl
  refine ⟨course_run service h turns, hx.length_notifications, fun _ _ _ => hx.reply, ?_, ?_,
    history_eq, Descriptor.update_eq⟩
  · intro k e he
    exact hx.recorded.reported k e.view
      (Reconciler.held?_of_streams hx.recorded.sound.filed he)
  · rintro earlier later rfl y k hnone
    have hy : y.Exact := exact_run service hw fun t ht => hl t (by simp [ht])
    have hrest : ∀ t ∈ later, t.Lawful := fun t ht => hl t (by simp [ht])
    have hlater := hy.poller_ne hnone hrest
    rwa [← run_append] at hlater

/-- A poller for `A` gets a block that reports a unit. Then `A` is evicted and asked for again, and
the new poller gets a block that reports an empty one. -/
def sampleTurns : List Turn :=
  let asked : Turn := .pass Hub.serve false [Course.sampleTopic "/daq" "A"]
  [asked, .act (.push 0 ⟨[.zero], [.ofList 0 [(Tag.signalUnit, .text "V")]]⟩), asked,
    .pass Hub.serve false [], asked, .act (.push 0 ⟨[], [.ofList 0 [(Tag.signalUnit, .text "")]]⟩),
    asked]

/-- What was taken: one block from each of two pollers. -/
def sampleTakings : Taking × Taking :=
  (⟨.continuous "A", ⟨0, 0⟩, .block ⟨[.zero], [.ofList 0 [(Tag.signalUnit, .text "V")]]⟩⟩,
    ⟨.continuous "A", ⟨0, 1⟩, .block ⟨[], [.ofList 0 [(Tag.signalUnit, .text "")]]⟩⟩)

/-- The reply to the first block carries the unit, the one to the second does not. -/
theorem descriptions_exact_sample :
    let x := run "/daq" Course.sampleHub sampleTurns
    (∃ n, x.notifications[0]? = some n ∧ n.reply.unit = "V") ∧
      ∃ n, x.notifications[1]? = some n ∧ n.reply.unit = unknownUnit := by
  have hlawful : ∀ t ∈ sampleTurns, t.Lawful := by
    intro t ht
    simp only [sampleTurns, List.mem_cons, List.not_mem_nil, or_false] at ht
    rcases ht with rfl | rfl | rfl | rfl | rfl | rfl | rfl
    all_goals first | exact Hub.lawful_serve | trivial
  have hw : Course.sampleHub.WellFormed :=
    (Hub.evolves_performAll _ _).wellFormed (Hub.wellFormed_empty _)
  have htakings : (run "/daq" Course.sampleHub sampleTurns).takings =
      [sampleTakings.1, sampleTakings.2] := by decide +kernel
  have hexact := descriptions_exact "/daq" Course.sampleHub hw sampleTurns hlawful
  dsimp only at hexact ⊢
  obtain ⟨-, -, hreplies, -⟩ := hexact
  obtain ⟨b, n, hb, hn, -, hreply⟩ := hreplies [] sampleTakings.1 [sampleTakings.2] htakings rfl
  obtain ⟨b', n', hb', hn', -, hreply'⟩ := hreplies [sampleTakings.1] sampleTakings.2 [] htakings rfl
  refine ⟨⟨n, hn, ?_⟩, n', hn', ?_⟩
  · rw [hreply]
    change (history "A" (blocksOf _ _)).unit = "V"
    decide +kernel
  · rw [hreply']
    change (history "A" (blocksOf _ _)).unit = unknownUnit
    decide +kernel

end Diary

end Daq
