import Daq.Proofs.Hub.Pollers
import Daq.Proofs.Table
import Mathlib.Data.Finset.Card

set_option autoImplicit false

/-!
# The entries of a reconciler

The two tables of a reconciler hold pollers with slightly different notes. Here both are seen as
one table of entries: a poller, the mark of the current pass, and the description that the next
reply starts from. Every operation of a reconciler is described by what it does to this table.

## Main definitions

* `Daq.answer`, `Daq.answers` — the replies to items, with the description that they leave behind.
* `Daq.Entry`, `Daq.Reconciler.held?` — what is held under a key, whichever table it is in.
* `Daq.Reconciler.keys`, `Daq.Reconciler.keySet` — the keys of both tables together.
* `Daq.Reconciler.Filed` — every key is in the table of its mode.
* `Daq.Reconciler.mark`, `Daq.Reconciler.report` — the two notes that a visit takes.

## Main results

* `Daq.Queue.drain_eq` — emptying in batches takes everything, in order.
* `Daq.Reconciler.held?_enter`, `held?_begin`, `held?_evict`, `held?_clear`, `held?_mark`,
  `held?_report` — the table of entries after each operation.
* `Daq.Reconciler.collect_eq` — a visit marks the entry and answers every item of its queue.
* `Daq.Reconciler.length_stale` — every entry is either stale or kept.
* `Daq.Pass.ensure_cases` — what the request for a key can come to.
-/

namespace Daq

/-! ### Replies to items -/

/-- The reply to an item of a poller described by `d`, and the description afterwards. The tags of a
block count for its own reply. -/
def answer (d : Descriptor) : Item → Reply × Descriptor
  | .block b => (.ofBlock (d.update b.tags) b, d.update b.tags)
  | .capture c => (.ofCapture d.name c, d)

/-- The replies to consecutive items, and the description after them. -/
def answers (d : Descriptor) : List Item → List Reply × Descriptor
  | [] => ([], d)
  | x :: rest =>
    let r := answers (answer d x).2 rest
    ((answer d x).1 :: r.1, r.2)

/-- The replies to two stretches of items. -/
lemma answers_append (d : Descriptor) (xs ys : List Item) :
    answers d (xs ++ ys) =
      ((answers d xs).1 ++ (answers (answers d xs).2 ys).1, (answers (answers d xs).2 ys).2) := by
  induction xs generalizing d with
  | nil => rfl
  | cons x xs ih => simp only [List.cons_append, answers, ih]

/-- Every item has one reply. -/
lemma length_answers (d : Descriptor) (xs : List Item) : (answers d xs).1.length = xs.length := by
  induction xs generalizing d with
  | nil => rfl
  | cons x xs ih => simp only [answers, List.length_cons, ih]

/-- The replies to blocks. -/
lemma answers_blocks (d : Descriptor) (bs : List Block) :
    answers d (bs.map .block) = repliesTo d bs := by
  induction bs generalizing d with
  | nil => rfl
  | cons b bs ih => simp only [List.map_cons, answers, answer, repliesTo, ih]

/-- The replies to captures; they leave the description as it is. -/
lemma answers_captures (d : Descriptor) (cs : List Capture) :
    answers d (cs.map .capture) = (cs.map (Reply.ofCapture d.name), d) := by
  induction cs with
  | nil => rfl
  | cons c cs ih => simp only [List.map_cons, answers, answer, ih]

section IsDataset

variable {k : PollerKey}

/-- What arrives for a dataset leaves the description as it is. -/
lemma answer_snd_of_isDataset (d : Descriptor) (hk : k.mode.isDataset = true) {x : Item}
    (hx : x.isBlock = !k.mode.isDataset) : (answer d x).2 = d := by
  rw [hk] at hx
  cases x with
  | block b => cases hx
  | capture c => rfl

/-- All that arrives for a dataset leaves the description as it is. -/
lemma answers_snd_of_isDataset (d : Descriptor) (hk : k.mode.isDataset = true) {xs : List Item}
    (hxs : ∀ x ∈ xs, x.isBlock = !k.mode.isDataset) : (answers d xs).2 = d := by
  induction xs with
  | nil => rfl
  | cons x xs ih =>
    simp only [answers]
    rw [answer_snd_of_isDataset d hk (hxs x (by simp))]
    exact ih fun y hy => hxs y (by simp [hy])

end IsDataset

/-- **Emptying a queue in batches takes everything, in order.**

**Proof sketch.** Induction on the number of items: a batch takes the front and leaves a shorter
queue, and an empty batch means that there was nothing. -/
lemma Queue.drain_eq {α : Type} (batch : Nat) (hb : 0 < batch) (q : Queue α) :
    q.drain batch = (q.items, { q with items := [] }) := by
  generalize hn : q.items.length = n
  induction n using Nat.strong_induction_on generalizing q with
  | _ n ih =>
    rw [drain]
    split
    · rename_i hempty
      have hnil : q.items = [] := by
        simp only [take, List.take_eq_nil_iff] at hempty
        rcases hempty with h | h
        · omega
        · exact h
      simp [take, hnil]
    · rename_i hne
      have hpos : 0 < q.items.length := by
        apply List.length_pos_of_ne_nil
        intro h
        apply hne
        simp [take, h]
      have hrest := ih (q.take batch).2.items.length
        (by simp only [take, List.length_drop]; omega) (q.take batch).2 rfl
      rw [hrest]
      simp [take, List.take_append_drop]

/-! ### Entries -/

/-- A poller with the notes that both tables have in common. -/
structure Entry where
  /-- The poller. -/
  poller : PollerRef
  /-- Whether the current pass has visited the entry. -/
  inUse : Bool
  /-- The description that the next reply starts from. -/
  reported : Descriptor

/-- The common view of a stream. -/
def StreamEntry.view (e : StreamEntry) : Entry := ⟨e.poller, e.inUse, e.reported⟩

/-- The common view of captures; every capture describes itself or is of the signal. -/
def CaptureEntry.view (e : CaptureEntry) : Entry := ⟨e.poller, e.inUse, .unknown e.signal⟩

namespace Reconciler

/-- The entry of a key, in the table of its mode. -/
def held? (r : Reconciler) (k : PollerKey) : Option Entry :=
  if k.mode.isDataset then (r.captures.get? k).map CaptureEntry.view
  else (r.streams.get? k).map StreamEntry.view

/-- The keys of both tables. -/
def keys (r : Reconciler) : List PollerKey := r.streams.keys ++ r.captures.keys

/-- The set of keys of both tables together. -/
def keySet (r : Reconciler) : Finset PollerKey := r.keys.toFinset

/-- Continuous keys are only in the table of streams, all others only in the table of captures. -/
structure Filed (r : Reconciler) : Prop where
  /-- The table of streams. -/
  streams : ∀ k ∈ r.streams.keys, k.mode.isDataset = false
  /-- The table of captures. -/
  captures : ∀ k ∈ r.captures.keys, k.mode.isDataset = true

/-- Mark the poller of a key as visited. -/
def mark (r : Reconciler) (k : PollerKey) : Reconciler :=
  if k.mode.isDataset then
    match r.captures.get? k with
    | some e => { r with captures := r.captures.insert k { e with inUse := true } }
    | none => r
  else
    match r.streams.get? k with
    | some e => { r with streams := r.streams.insert k { e with inUse := true } }
    | none => r

/-- Note what the tags of a stream have reported. Captures take no such note. -/
def report (r : Reconciler) (k : PollerKey) (d : Descriptor) : Reconciler :=
  if k.mode.isDataset then r
  else
    match r.streams.get? k with
    | some e => { r with streams := r.streams.insert k { e with reported := d } }
    | none => r

/-- A key has a poller exactly if it has an entry. -/
lemma contains_eq (r : Reconciler) (k : PollerKey) : r.contains k = (r.held? k).isSome := by
  unfold contains held? Table.contains
  split <;> simp

/-- A key has no poller exactly if it has no entry. -/
lemma contains_eq_false_iff (r : Reconciler) (k : PollerKey) :
    r.contains k = false ↔ r.held? k = none := by
  rw [contains_eq, Option.isSome_eq_false_iff, Option.isNone_iff_eq_none]

/-- The table of streams holds the entries of continuous keys. -/
lemma get?_streams {r : Reconciler} (hf : r.Filed) (k : PollerKey) :
    (r.streams.get? k).map StreamEntry.view = if k.mode.isDataset then none else r.held? k := by
  unfold held?
  by_cases hk : k.mode.isDataset = true
  · rw [if_pos hk]
    cases hg : r.streams.get? k with
    | none => rfl
    | some e =>
      have hmem := (r.streams.mem_keys k).mpr (by rw [hg]; rfl)
      rw [hf.streams k hmem] at hk
      cases hk
  · rw [if_neg hk, if_neg hk]

/-- The table of captures holds the entries of the other keys. -/
lemma get?_captures {r : Reconciler} (hf : r.Filed) (k : PollerKey) :
    (r.captures.get? k).map CaptureEntry.view = if k.mode.isDataset then r.held? k else none := by
  unfold held?
  by_cases hk : k.mode.isDataset = true
  · rw [if_pos hk, if_pos hk]
  · rw [if_neg hk]
    cases hg : r.captures.get? k with
    | none => rfl
    | some e =>
      have hmem := (r.captures.mem_keys k).mpr (by rw [hg]; rfl)
      exact absurd (hf.captures k hmem) hk

/-- **The keys of both tables are those with an entry.** -/
lemma mem_keys {r : Reconciler} (hf : r.Filed) (k : PollerKey) :
    k ∈ r.keys ↔ (r.held? k).isSome := by
  unfold keys held?
  rw [List.mem_append]
  constructor
  · rintro (h | h)
    · rw [hf.streams k h, if_neg (by simp)]
      simpa using (r.streams.mem_keys k).mp h
    · rw [hf.captures k h, if_pos rfl]
      simpa using (r.captures.mem_keys k).mp h
  · intro h
    by_cases hk : k.mode.isDataset = true
    · rw [if_pos hk] at h
      exact .inr ((r.captures.mem_keys k).mpr (by simpa using h))
    · rw [if_neg hk] at h
      exact .inl ((r.streams.mem_keys k).mpr (by simpa using h))

/-- The keys with an entry, as a set. -/
lemma mem_keySet {r : Reconciler} (hf : r.Filed) (k : PollerKey) :
    k ∈ r.keySet ↔ (r.held? k).isSome := by
  rw [keySet, List.mem_toFinset, mem_keys hf]

/-- No key is listed twice. -/
lemma nodup_keys {r : Reconciler} (hf : r.Filed) : r.keys.Nodup := by
  refine List.nodup_append.mpr ⟨r.streams.keys_nodup, r.captures.keys_nodup, ?_⟩
  rintro k hk j hj rfl
  have h := hf.streams k hk
  rw [hf.captures k hj] at h
  cases h

/-- The number of keys. -/
lemma card_keySet {r : Reconciler} (hf : r.Filed) : r.keySet.card = r.keys.length :=
  List.toFinset_card_of_nodup (nodup_keys hf)

/-! ### Operations -/

section Operations

variable (r : Reconciler) (k j : PollerKey)

/-- Counting changes no entry. -/
@[simp]
lemma held?_count (f : Counters → Counters) : (r.count f).held? k = r.held? k := rfl

/-- Entering a poller adds an entry that was not visited, or replaces one. -/
lemma held?_enter (p : PollerRef) :
    (r.enter k p).held? j =
      if j = k then some ⟨p, false, .unknown k.signal⟩ else r.held? j := by
  unfold enter held?
  by_cases hjk : j = k
  · subst hjk
    by_cases hk : j.mode.isDataset = true
    · simp [hk, CaptureEntry.view]
    · simp [hk, StreamEntry.view]
  · by_cases hk : k.mode.isDataset = true <;> by_cases hj : j.mode.isDataset = true <;>
      simp [hjk, hk, hj, count]

/-- Before a pass no entry is marked. -/
lemma held?_markUnused :
    r.markUnused.held? k = (r.held? k).map fun e => { e with inUse := false } := by
  unfold markUnused held?
  by_cases hk : k.mode.isDataset = true
  · rw [if_pos hk, if_pos hk, Table.get?_map, Option.map_map, Option.map_map]
    rfl
  · rw [if_neg hk, if_neg hk, Table.get?_map, Option.map_map, Option.map_map]
    rfl

/-- A pass begins with the entries that are there, and none of them is marked. -/
lemma held?_begin (h : Hub) (topics : List Topic) :
    (r.begin h topics).reconciler.held? k = (r.held? k).map fun e => { e with inUse := false } :=
  r.held?_markUnused k

/-- A new reconciler has no entry. -/
@[simp]
lemma held?_empty (service : String) : ({ service } : Reconciler).held? k = none := by
  unfold held?
  split <;> rfl

/-- A look-up of a chosen entry, seen through the common view. -/
lemma filter_map_view {α : Type} (view : α → Entry) (inUse : α → Bool)
    (hv : ∀ e, (view e).inUse = inUse e) (o : Option α) :
    (o.filter inUse).map view = (o.map view).filter fun e => e.inUse := by
  cases o with
  | none => rfl
  | some e =>
    cases hu : inUse e with
    | false => simp [Option.filter, hu, hv]
    | true => simp [Option.filter, hu, hv]

/-- The sweep keeps the marked entries. -/
lemma held?_evict (h : Hub) :
    (r.evict h).1.held? k = (r.held? k).filter fun e => e.inUse := by
  unfold evict held?
  by_cases hk : k.mode.isDataset = true
  · rw [if_pos hk, if_pos hk, Table.get?_filter]
    exact filter_map_view CaptureEntry.view (fun e => e.inUse) (fun _ => rfl) _
  · rw [if_neg hk, if_neg hk, Table.get?_filter]
    exact filter_map_view StreamEntry.view (fun e => e.inUse) (fun _ => rfl) _

/-- Letting go of all pollers leaves no entry. -/
@[simp]
lemma held?_clear (h : Hub) : (r.clear h).1.held? k = none := by
  unfold clear held?
  split <;> rfl

/-- Marking an entry. -/
lemma held?_mark :
    (r.mark k).held? j =
      if j = k then (r.held? k).map fun e => { e with inUse := true } else r.held? j := by
  unfold mark
  by_cases hk : k.mode.isDataset = true
  · rw [if_pos hk]
    cases hg : r.captures.get? k with
    | none => by_cases hjk : j = k <;> simp [held?, hjk, hk, hg]
    | some e =>
      by_cases hjk : j = k
      · simp [held?, hjk, hk, hg, CaptureEntry.view]
      · simp [held?, hjk]
  · rw [if_neg hk]
    cases hg : r.streams.get? k with
    | none => by_cases hjk : j = k <;> simp [held?, hjk, hk, hg]
    | some e =>
      by_cases hjk : j = k
      · simp [held?, hjk, hk, hg, StreamEntry.view]
      · simp [held?, hjk]

/-- Noting a report, given that the report on captures never differs. -/
lemma held?_report {e : Entry} (he : r.held? k = some e) (d : Descriptor)
    (hd : k.mode.isDataset = true → d = e.reported) :
    (r.report k d).held? j = if j = k then some { e with reported := d } else r.held? j := by
  unfold report
  by_cases hk : k.mode.isDataset = true
  · rw [if_pos hk, hd hk]
    by_cases hjk : j = k
    · rw [if_pos hjk, hjk, he]
    · rw [if_neg hjk]
  · rw [if_neg hk]
    unfold held? at he
    rw [if_neg hk] at he
    obtain ⟨s, hs, rfl⟩ := Option.map_eq_some_iff.mp he
    by_cases hjk : j = k
    · simp [held?, hjk, hk, hs, StreamEntry.view]
    · simp [held?, hjk, hs]

/-- Marking an entry that is there. -/
lemma held?_mark_of_some {e : Entry} (he : r.held? k = some e) :
    (r.mark k).held? j = if j = k then some { e with inUse := true } else r.held? j := by
  rw [held?_mark, he]
  rfl

end Operations

/-! ### Where keys are filed -/

section Filed

variable {r : Reconciler} (hf : r.Filed)

/-- A reconciler without pollers. -/
lemma filed_empty (service : String) : ({ service } : Reconciler).Filed :=
  ⟨fun k hk => by simp at hk, fun k hk => by simp at hk⟩

/-- After letting go of all pollers there is nothing to file. -/
lemma filed_clear (r : Reconciler) (h : Hub) : (r.clear h).1.Filed :=
  ⟨fun k hk => by simp [Reconciler.clear] at hk, fun k hk => by simp [Reconciler.clear] at hk⟩

include hf

/-- Storing under a continuous key. -/
lemma Filed.insertStream {k : PollerKey} (hk : k.mode.isDataset = false) (e : StreamEntry) :
    Filed { r with streams := r.streams.insert k e } := by
  refine ⟨fun j hj => ?_, hf.captures⟩
  rcases (r.streams.mem_keys_insert k j e).mp hj with rfl | hj
  · exact hk
  · exact hf.streams j hj

/-- Storing under a key for captures. -/
lemma Filed.insertCapture {k : PollerKey} (hk : k.mode.isDataset = true) (e : CaptureEntry) :
    Filed { r with captures := r.captures.insert k e } := by
  refine ⟨hf.streams, fun j hj => ?_⟩
  rcases (r.captures.mem_keys_insert k j e).mp hj with rfl | hj
  · exact hk
  · exact hf.captures j hj

/-- A new poller is filed by the mode of its key. -/
lemma Filed.enter (k : PollerKey) (p : PollerRef) : (r.enter k p).Filed := by
  unfold Reconciler.enter
  by_cases hk : k.mode.isDataset = true
  · rw [if_pos hk]
    exact Filed.insertCapture (r := r.count _) ⟨hf.streams, hf.captures⟩ hk _
  · rw [if_neg hk]
    exact Filed.insertStream (r := r.count _) ⟨hf.streams, hf.captures⟩ (by simpa using hk) _

/-- A mark moves no key. -/
lemma Filed.mark (k : PollerKey) : (r.mark k).Filed := by
  unfold Reconciler.mark
  by_cases hk : k.mode.isDataset = true
  · rw [if_pos hk]
    split
    · exact hf.insertCapture hk _
    · exact hf
  · rw [if_neg hk]
    split
    · exact hf.insertStream (by simpa using hk) _
    · exact hf

/-- A report moves no key. -/
lemma Filed.report (k : PollerKey) (d : Descriptor) : (r.report k d).Filed := by
  unfold Reconciler.report
  by_cases hk : k.mode.isDataset = true
  · rw [if_pos hk]
    exact hf
  · rw [if_neg hk]
    split
    · exact hf.insertStream (by simpa using hk) _
    · exact hf

/-- Removing marks moves no key. -/
lemma Filed.markUnused : r.markUnused.Filed :=
  ⟨fun k hk => hf.streams k (by simpa [Reconciler.markUnused] using hk),
    fun k hk => hf.captures k (by simpa [Reconciler.markUnused] using hk)⟩

/-- The sweep moves no key. -/
lemma Filed.evict (h : Hub) : (r.evict h).1.Filed := by
  refine ⟨fun k hk => hf.streams k ?_, fun k hk => hf.captures k ?_⟩
  · exact (List.filter_sublist.map (fun e : PollerKey × StreamEntry => e.1)).subset hk
  · exact (List.filter_sublist.map (fun e : PollerKey × CaptureEntry => e.1)).subset hk

end Filed

/-! ### Marks and reports as counted by others -/

/-- A mark changes neither counters nor service. -/
lemma mark_counters (r : Reconciler) (k : PollerKey) :
    (r.mark k).counters = r.counters ∧ (r.mark k).service = r.service := by
  unfold mark
  split <;> split <;> exact ⟨rfl, rfl⟩

/-- A report changes neither counters nor service. -/
lemma report_counters (r : Reconciler) (k : PollerKey) (d : Descriptor) :
    (r.report k d).counters = r.counters ∧ (r.report k d).service = r.service := by
  unfold report
  split
  · exact ⟨rfl, rfl⟩
  · split <;> exact ⟨rfl, rfl⟩

/-- A new poller is counted. -/
lemma enter_counters (r : Reconciler) (k : PollerKey) (p : PollerRef) :
    (r.enter k p).counters = { r.counters with pollersCreated := r.counters.pollersCreated + 1 } ∧
      (r.enter k p).service = r.service := by
  unfold enter
  split <;> exact ⟨rfl, rfl⟩

/-! ### A visit as a whole -/

/-- **A visit marks the entry, answers every item of its queue and empties it.** The flag of the
producer is the one from before. -/
theorem collect_eq {r : Reconciler} {h : Hub} (hw : h.WellFormed) {k : PollerKey} {e : Entry}
    (he : r.held? k = some e) (hs : h.Serves k e.poller) :
    r.collect h k =
      some (⟨h.finished e.poller, (answers e.reported (h.items e.poller)).1⟩,
        (r.mark k).report k (answers e.reported (h.items e.poller)).2, h.emptied e.poller) := by
  have hbatch : 0 < batchSize := by decide
  obtain ⟨t, ht, -, hkind⟩ := hs
  have hitems : h.items e.poller = t.outlet.items := by simp [Hub.items, ht]
  have hflag : h.finished e.poller = t.outlet.finished := by simp [Hub.finished, ht]
  unfold held? at he
  by_cases hk : k.mode.isDataset = true
  · rw [if_pos hk] at he
    obtain ⟨c, hc, rfl⟩ := Option.map_eq_some_iff.mp he
    rw [hk] at hkind
    cases ho : t.outlet with
    | stream q => simp [ho, Outlet.isStream] at hkind
    | captures o q =>
      have hq : h.captures? c.poller = some q := by
        change h.tap? c.poller = some t at ht
        simp [Hub.captures?, ht, ho, Outlet.captures?]
      have hhub : h.setCaptures c.poller { q with items := [] } = h.emptied c.poller :=
        Hub.modifyTap_congr hw ht (by simp [ho, Outlet.emptied])
      rw [hitems, hflag, ho]
      simp only [collect, hk, if_true, hc, hq, Option.bind_eq_bind, Option.bind_some,
        Queue.collectCaptures, Queue.drain_eq _ hbatch, Outlet.items, answers_captures, mark,
        report, CaptureEntry.view, hhub]
      rfl
  · rw [if_neg hk] at he
    obtain ⟨s, hs, rfl⟩ := Option.map_eq_some_iff.mp he
    have hk' : k.mode.isDataset = false := by simpa using hk
    rw [hk'] at hkind
    cases ho : t.outlet with
    | captures o q => simp [ho, Outlet.isStream] at hkind
    | stream q =>
      have hq : h.stream? s.poller = some q := by
        change h.tap? s.poller = some t at ht
        simp [Hub.stream?, ht, ho, Outlet.stream?]
      have hhub : h.setStream s.poller { q with items := [] } = h.emptied s.poller :=
        Hub.modifyTap_congr hw ht (by simp [ho, Outlet.emptied])
      rw [hitems, hflag, ho]
      simp only [collect, hk, hs, hq, Option.bind_eq_bind, Option.bind_some,
        Queue.collectBlocks, Queue.drain_eq _ hbatch, Outlet.items, answers_blocks, mark,
        report, StreamEntry.view, hhub, Table.get?_insert, if_true, if_false, Table.insert_insert,
        Bool.false_eq_true]
      rfl

/-- Without an entry there is nothing to visit. -/
lemma collect_eq_none {r : Reconciler} (h : Hub) {k : PollerKey} (he : r.held? k = none) :
    r.collect h k = none := by
  unfold held? at he
  unfold collect
  by_cases hk : k.mode.isDataset = true
  · rw [if_pos hk] at he ⊢
    simp [Option.map_eq_none_iff.mp he]
  · rw [if_neg hk] at he ⊢
    simp [Option.map_eq_none_iff.mp he]

/-! ### The sweep -/

/-- Entries of a table that are in use and those that are not are all entries. -/
lemma length_filter_values {α : Type} (t : Table PollerKey α) (p : α → Bool) :
    (t.filter fun _ e => !p e).values.length + (t.filter fun _ e => p e).keys.length =
      t.keys.length := by
  simp only [Table.filter, Table.values, Table.keys, List.length_map]
  induction t.entries with
  | nil => rfl
  | cons e rest ih =>
    cases hp : p e.2 <;> simp [hp] <;> omega

/-- **Every entry is either stale or kept.** -/
lemma length_stale (r : Reconciler) (h : Hub) :
    r.stale.length + (r.evict h).1.keys.length = r.keys.length := by
  have hs := length_filter_values r.streams fun e => e.inUse
  have hc := length_filter_values r.captures fun e => e.inUse
  simp only [stale, evict, keys, List.length_append, List.length_map]
  omega

/-- An entry in a table, seen through the common view. -/
lemma held?_of_streams {r : Reconciler} (hf : r.Filed) {k : PollerKey} {e : StreamEntry}
    (he : r.streams.get? k = some e) : r.held? k = some e.view := by
  have hview := get?_streams hf k
  rw [he, Option.map_some] at hview
  split at hview
  · cases hview
  · exact hview.symm

/-- Likewise for captures. -/
lemma held?_of_captures {r : Reconciler} (hf : r.Filed) {k : PollerKey} {e : CaptureEntry}
    (he : r.captures.get? k = some e) : r.held? k = some e.view := by
  have hview := get?_captures hf k
  rw [he, Option.map_some] at hview
  split at hview
  · exact hview.symm
  · cases hview

/-- The pollers of both tables are those of the entries. -/
lemma mem_pollers {r : Reconciler} (hf : r.Filed) (p : PollerRef) :
    p ∈ r.pollers ↔ ∃ k e, r.held? k = some e ∧ e.poller = p := by
  unfold pollers
  rw [List.mem_append, List.mem_map, List.mem_map]
  constructor
  · rintro (⟨e, he, rfl⟩ | ⟨e, he, rfl⟩)
    · obtain ⟨k, hk⟩ := (Table.mem_values _ _).mp he
      exact ⟨k, e.view, held?_of_streams hf hk, rfl⟩
    · obtain ⟨k, hk⟩ := (Table.mem_values _ _).mp he
      exact ⟨k, e.view, held?_of_captures hf hk, rfl⟩
  · rintro ⟨k, e, he, rfl⟩
    unfold held? at he
    split at he
    · obtain ⟨c, hc, rfl⟩ := Option.map_eq_some_iff.mp he
      exact .inr ⟨c, (Table.mem_values _ _).mpr ⟨k, hc⟩, rfl⟩
    · obtain ⟨s, hs, rfl⟩ := Option.map_eq_some_iff.mp he
      exact .inl ⟨s, (Table.mem_values _ _).mpr ⟨k, hs⟩, rfl⟩

/-- **The stale pollers are those of entries that were not visited.** -/
lemma mem_stale {r : Reconciler} (hf : r.Filed) (p : PollerRef) :
    p ∈ r.stale ↔ ∃ k e, r.held? k = some e ∧ e.poller = p ∧ e.inUse = false := by
  unfold stale
  rw [List.mem_append, List.mem_map, List.mem_map]
  constructor
  · rintro (⟨e, he, rfl⟩ | ⟨e, he, rfl⟩)
    · obtain ⟨k, hk⟩ := (Table.mem_values _ _).mp he
      rw [Table.get?_filter, Option.filter_eq_some_iff] at hk
      exact ⟨k, e.view, held?_of_streams hf hk.1, rfl, by simpa [StreamEntry.view] using hk.2⟩
    · obtain ⟨k, hk⟩ := (Table.mem_values _ _).mp he
      rw [Table.get?_filter, Option.filter_eq_some_iff] at hk
      exact ⟨k, e.view, held?_of_captures hf hk.1, rfl, by simpa [CaptureEntry.view] using hk.2⟩
  · rintro ⟨k, e, he, rfl, huse⟩
    unfold held? at he
    split at he
    · obtain ⟨c, hc, rfl⟩ := Option.map_eq_some_iff.mp he
      refine .inr ⟨c, (Table.mem_values _ _).mpr ⟨k, ?_⟩, rfl⟩
      rw [Table.get?_filter, Option.filter_eq_some_iff]
      exact ⟨hc, by simpa [CaptureEntry.view] using huse⟩
    · obtain ⟨s, hs, rfl⟩ := Option.map_eq_some_iff.mp he
      refine .inl ⟨s, (Table.mem_values _ _).mpr ⟨k, ?_⟩, rfl⟩
      rw [Table.get?_filter, Option.filter_eq_some_iff]
      exact ⟨hs, by simpa [StreamEntry.view] using huse⟩

end Reconciler

/-! ### Requests -/

/-- **What a request can come to.** It is not made at all, for a key that has a poller and by a pass
that flushes; or it is refused, and the refusal is counted; or it opens a poller. -/
lemma Pass.ensure_cases (p : Pass) (grant : Grant) (flush : Bool) (k : PollerKey) :
    ((p.reconciler.contains k || flush) = true ∧ p.ensure grant flush k = p) ∨
      (p.reconciler.contains k = false ∧ flush = false ∧ ∃ e, grant p.hub k = .error e ∧
        p.ensure grant flush k =
          { p with reconciler := p.reconciler.count fun c => c.refuse e }) ∨
      (p.reconciler.contains k = false ∧ flush = false ∧ ∃ q h', grant p.hub k = .ok (q, h') ∧
        p.ensure grant flush k = { p with reconciler := p.reconciler.enter k q, hub := h' }) := by
  unfold ensure
  by_cases hskip : (p.reconciler.contains k || flush) = true
  · exact .inl ⟨hskip, if_pos hskip⟩
  · rw [if_neg hskip]
    obtain ⟨hcon, hfl⟩ : p.reconciler.contains k = false ∧ flush = false := by simpa using hskip
    cases hok : grant p.hub k with
    | error e => exact .inr (.inl ⟨hcon, hfl, e, rfl, rfl⟩)
    | ok x => exact .inr (.inr ⟨hcon, hfl, x.1, x.2, rfl, rfl⟩)

end Daq
