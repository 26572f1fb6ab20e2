import Daq.Reconciler
import Mathlib.Data.List.DropRight

set_option autoImplicit false

/-!
# Routing by keys

The reconciler decides by keys: a filter asks for one key for each channel that it lists, and the
reply to a visit carries the filter narrowed to the channel. The broker decides by filters: it hands
a reply on to the subscribers whose filter accepts the narrowed one. Both decisions agree.

## Main definitions

* `Daq.Topic.keysFor` — the keys that a topic asks a service for.

## Main results

* `Daq.Filter.channelNames_forChannel` — a filter narrowed to a listed channel lists just that one.
* `Daq.Filter.accepts_forChannel` — a narrowed filter is accepted exactly by the filters that ask
  for its key.
* `Daq.Subscription.wants_visit` — a reply to a visit is wanted exactly by the subscriptions whose
  topic asks for the key of the visit.
-/

namespace Daq

/-- The keys that a topic asks a service for. -/
def Topic.keysFor (service : String) (t : Topic) : List PollerKey :=
  if t.path = service then
    match Filter.ofParams t.params with
    | .ok f => f.channelNames.map f.key
    | .error _ => []
  else []

/-! ### Channel lists -/

namespace Text

/-- Trimming twice is trimming once.

**Proof sketch.** The trimmed text is a prefix of the text without its first blanks, so it does not
begin with a blank unless it is empty, and it does not end with one either. -/
lemma trimWith_trimWith (p : Char → Bool) (s : List Char) :
    trimWith p (trimWith p s) = trimWith p s := by
  have hdef : ∀ l : List Char, trimWith p l = (l.dropWhile p).rdropWhile p := fun _ => rfl
  have hbefore : trimWith p s <+: s.dropWhile p := by
    rw [hdef]
    exact List.rdropWhile_prefix p _
  have hfront : (trimWith p s).dropWhile p = trimWith p s := by
    rw [List.dropWhile_eq_self_iff]
    intro hpos
    have hlen : 0 < (s.dropWhile p).length := lt_of_lt_of_le hpos hbefore.length_le
    rw [hbefore.getElem hpos]
    exact List.dropWhile_get_zero_not p s hlen
  rw [hdef (trimWith p s), hfront, hdef, List.rdropWhile_idempotent]

/-- Trimming only removes characters. -/
lemma mem_of_mem_trimWith {p : Char → Bool} {s : List Char} {c : Char} (h : c ∈ trimWith p s) :
    c ∈ s := by
  unfold trimWith at h
  rw [List.mem_reverse] at h
  have hmem := (List.dropWhile_suffix p).subset h
  rw [List.mem_reverse] at hmem
  exact (List.dropWhile_suffix p).subset hmem

end Text

/-- A separator is in none of the parts. -/
lemma not_mem_of_mem_splitOn {a : Char} {l part : List Char} (h : part ∈ l.splitOn a) :
    a ∉ part := by
  induction l generalizing part with
  | nil =>
    rw [List.splitOn_nil, List.mem_singleton] at h
    simp [h]
  | cons x xs ih =>
    rw [List.splitOn_cons_eq_if_modifyHead] at h
    split at h
    · rcases List.mem_cons.mp h with rfl | h
      · simp
      · exact ih h
    · rename_i hx
      have hxa : ¬ a = x := fun heq => hx (by simp [heq])
      cases hs : xs.splitOn a with
      | nil => exact absurd hs (List.splitOn_ne_nil a xs)
      | cons first rest =>
        rw [hs, List.modifyHead_cons] at h
        rcases List.mem_cons.mp h with rfl | h
        · rw [List.mem_cons, not_or]
          exact ⟨hxa, ih (by rw [hs]; simp)⟩
        · exact ih (by rw [hs]; simp [h])

namespace Filter

/-- A listed channel lists just itself. -/
lemma splitChannels_of_mem {l x : List Char} (h : x ∈ splitChannels l) : splitChannels x = [x] := by
  unfold splitChannels at h
  rw [List.mem_filter, List.mem_map] at h
  obtain ⟨⟨part, hpart, rfl⟩, hne⟩ := h
  have hsep : ',' ∉ Text.trimWith Text.isBlank part := fun hmem =>
    not_mem_of_mem_splitOn hpart (Text.mem_of_mem_trimWith hmem)
  unfold splitChannels
  rw [List.splitOn_eq_singleton hsep, List.map_singleton, Text.trimWith_trimWith,
    List.filter_singleton, hne, cond_true]

/-- **A filter narrowed to a listed channel lists just that one.** -/
theorem channelNames_forChannel (f : Filter) {g : Filter} {c : String} (hc : c ∈ g.channelNames) :
    (f.forChannel c).channelNames = [c] := by
  unfold channelNames at hc
  obtain ⟨x, hx, rfl⟩ := List.mem_map.mp hc
  unfold channelNames forChannel
  dsimp only
  rw [String.toList_ofList, splitChannels_of_mem hx, List.map_singleton]

/-- The key of a channel is for its signal. -/
lemma signal_key (f : Filter) (c : String) : (f.key c).signal = c := by
  unfold key
  cases f.mode <;> rfl

/-- Narrowing changes no key. -/
@[simp]
lemma key_forChannel (f : Filter) (c d : String) : (f.forChannel c).key d = f.key d := rfl

/-- **A narrowed filter is accepted exactly by the filters that ask for its key.** -/
theorem accepts_forChannel (f : Filter) {g : Filter} {c : String} (hc : c ∈ g.channelNames) :
    f.accepts (g.forChannel c) = true ↔ g.key c ∈ f.channelNames.map f.key := by
  unfold accepts
  rw [channelNames_forChannel g hc]
  simp only [key_forChannel, Bool.and_eq_true, List.contains_iff_mem, beq_iff_eq, List.mem_map]
  constructor
  · rintro ⟨hmem, hkey⟩
    exact ⟨c, hmem, hkey⟩
  · rintro ⟨d, hd, hkey⟩
    have hsignal : d = c := by
      rw [← f.signal_key d, hkey, g.signal_key]
    exact ⟨hsignal ▸ hd, hsignal ▸ hkey⟩

end Filter

/-- A visit asks for a channel that some filter lists, which was read from parameters. -/
lemma exists_of_mem_visits {service : String} {topics : List Topic} {v : Visit}
    (hv : v ∈ visits service topics) :
    ∃ g : Filter, ∃ c ∈ g.channelNames, v = ⟨g.key c, g.forChannel c⟩ ∧
      ∃ params, Filter.ofParams params = .ok g := by
  obtain ⟨t, -, ht⟩ := List.mem_flatMap.mp hv
  unfold Topic.visits at ht
  split at ht
  · rename_i g hg
    obtain ⟨c, hc, rfl⟩ := List.mem_map.mp ht
    exact ⟨g, c, hc, rfl, t.params, hg⟩
  · cases ht

/-- **A reply to a visit is wanted exactly by the subscriptions whose topic asks for the key of the
visit.** -/
theorem Subscription.wants_visit (s : Subscription) {service : String} {topics : List Topic}
    {v : Visit} (hv : v ∈ visits service topics) :
    s.wants service v.filter = true ↔ v.key ∈ s.topic.keysFor service := by
  obtain ⟨g, c, hc, rfl, -⟩ := exists_of_mem_visits hv
  unfold wants filter? Topic.keysFor
  rw [Bool.and_eq_true, beq_iff_eq]
  by_cases hpath : s.topic.path = service
  · rw [if_pos hpath]
    cases Filter.ofParams s.topic.params with
    | error e => simp [Except.toOption]
    | ok f => simp [Except.toOption, hpath, f.accepts_forChannel hc]
  · rw [if_neg hpath]
    simp [hpath]

end Daq
