import Daq.Proofs.Routing

set_option autoImplicit false

/-!
# Which filters accept each other

A notification is about one channel, and it carries the filter of some subscriber narrowed to that
channel. Whether another subscriber accepts it depends on three things only: whether it lists the
channel, whether both want the same mode, and whether they agree on the parameters of that mode.
On the filters that list a channel this is an equivalence, with the classes told apart by the poller
keys of the channel.

## Main definitions

* `Daq.Filter.Agrees` — both filters have one mode and the same parameters of it.

## Main results

* `Daq.Filter.key_eq_iff` — agreement is equality of the keys of any channel.
* `Daq.Filter.length_channelNames` — a filter lists as many channels as its text has entries that
  are not blank.
* `Daq.Filter.accepts_exact` — the relation between filters that acceptance is.
-/

namespace Daq

namespace Text

/-- Trimming leaves nothing exactly of a text that is blank. -/
lemma trimWith_eq_nil_iff {p : Char → Bool} {s : List Char} :
    trimWith p s = [] ↔ s.all p = true := by
  have hdef : trimWith p s = (s.dropWhile p).rdropWhile p := rfl
  rw [hdef, List.rdropWhile_eq_nil_iff, List.all_eq_true]
  constructor
  · intro h
    -- What is left in front does not begin with a blank, so nothing is left.
    cases hrest : s.dropWhile p with
    | nil => exact List.dropWhile_eq_nil_iff.mp hrest
    | cons c rest =>
      have hc : p c = true := h c (by rw [hrest]; exact List.mem_cons_self)
      have hne : s.dropWhile p ≠ [] := by simp [hrest]
      have hnot := List.head_dropWhile_not p hne
      simp [hrest, hc] at hnot
  · intro h c hc
    exact h c ((List.dropWhile_suffix p).subset hc)

end Text

namespace Filter

/-- Both filters have one mode and the same parameters of it. The parameters of other modes, and the
channels, may differ. -/
def Agrees (f g : Filter) : Prop :=
  f.mode = g.mode ∧
    match f.mode with
    | .continuous => True
    | .triggered => f.trigger = g.trigger ∧ f.pre = g.pre ∧ f.post = g.post
    | .multiplexed => f.trigger = g.trigger ∧ f.window = g.window
    | .snapshot => f.trigger = g.trigger ∧ f.delay = g.delay

/-! ### Agreement -/

/-- The key of a channel has the mode of the filter. -/
lemma mode_key (f : Filter) (c : String) : (f.key c).mode = f.mode := by
  unfold key
  cases f.mode <;> rfl

/-- **Filters agree exactly if they resolve a channel to one key**, whatever the channel. -/
theorem key_eq_iff (f g : Filter) (c : String) : f.key c = g.key c ↔ f.Agrees g := by
  unfold Agrees
  by_cases hmode : f.mode = g.mode
  · unfold key
    rw [← hmode]
    cases f.mode with
    | continuous => simp
    | triggered => simp [PollerKey.triggered, PollerKey.continuous, and_comm, and_assoc]
    | multiplexed => simp [PollerKey.multiplexed, PollerKey.continuous, and_comm]
    | snapshot => simp [PollerKey.snapshot, PollerKey.continuous, and_comm]
  · constructor
    · intro h
      rw [← f.mode_key c, h, g.mode_key] at hmode
      exact absurd rfl hmode
    · intro h
      exact absurd h.1 hmode

/-! ### Acceptance -/

/-- A narrowed filter is accepted by those that list the channel and resolve it to the same key. -/
lemma accepts_forChannel_iff (f : Filter) {g : Filter} {c : String} (hc : c ∈ g.channelNames) :
    f.accepts (g.forChannel c) = true ↔ c ∈ f.channelNames ∧ f.key c = g.key c := by
  rw [f.accepts_forChannel hc, List.mem_map]
  constructor
  · rintro ⟨d, hd, hkey⟩
    have hsignal : d = c := by
      rw [← f.signal_key d, hkey, g.signal_key]
    exact ⟨hsignal ▸ hd, hsignal ▸ hkey⟩
  · rintro ⟨hmem, hkey⟩
    exact ⟨c, hmem, hkey⟩

/-- A filter lists as many channels as its text has entries that are not blank. -/
lemma length_channelNames (f : Filter) :
    f.channelNames.length = (f.channels.toList.splitOn ',').countP fun e => !e.all Text.isBlank := by
  unfold channelNames splitChannels
  rw [List.length_map, ← List.countP_eq_length_filter, List.countP_map]
  apply List.countP_congr
  intro e _
  simp only [Function.comp_apply, Bool.not_eq_true', ← Bool.not_eq_true, List.isEmpty_iff,
    Text.trimWith_eq_nil_iff]

/-- Only a filter with exactly one channel is accepted by anyone, and it is accepted by itself. -/
lemma accepts_eq_false_iff (n : Filter) :
    (∀ f : Filter, f.accepts n = false) ↔ n.channelNames.length ≠ 1 := by
  constructor
  · intro h hone
    obtain ⟨c, hc⟩ := List.length_eq_one_iff.mp hone
    have hself := h n
    simp [accepts, hc] at hself
  · intro hlen f
    unfold accepts
    split
    · rename_i c hc
      rw [hc] at hlen
      exact absurd rfl hlen
    · rfl

/-- **Acceptance as a relation between filters**, whatever the channel lists look like.

A filter accepts the narrowing of another to one of its channels exactly if it lists the channel,
too, and both have one mode and the same parameters of it; this is so exactly if it lists the
channel and both resolve it to one key. Parameters of other modes never matter: filters that agree
may take each other's place on both sides. Hence a filter accepts its own narrowings, two filters
that list a channel accept each other's narrowings to it or both do not, and acceptance goes on from
filter to filter. A notification is accepted by nobody exactly if the number of entries of its
channel text that are not blank is not one. -/
theorem accepts_exact :
    (∀ f g : Filter, ∀ c ∈ g.channelNames,
        (f.accepts (g.forChannel c) = true ↔ c ∈ f.channelNames ∧ f.Agrees g) ∧
          (f.accepts (g.forChannel c) = true ↔ c ∈ f.channelNames ∧ f.key c = g.key c)) ∧
      (∀ f f' g g' : Filter, ∀ c ∈ g.channelNames, c ∈ g'.channelNames →
        f.channels = f'.channels → f.Agrees f' → g.Agrees g' →
          f.accepts (g.forChannel c) = f'.accepts (g'.forChannel c)) ∧
      (∀ f : Filter, ∀ c ∈ f.channelNames, f.accepts (f.forChannel c) = true) ∧
      (∀ f g : Filter, ∀ c ∈ f.channelNames, c ∈ g.channelNames →
        f.accepts (g.forChannel c) = g.accepts (f.forChannel c)) ∧
      (∀ f g h : Filter, ∀ c ∈ h.channelNames,
        f.accepts (g.forChannel c) = true → g.accepts (h.forChannel c) = true →
          f.accepts (h.forChannel c) = true) ∧
      ∀ n : Filter, (∀ f : Filter, f.accepts n = false) ↔
        ((n.channels.toList.splitOn ',').countP fun e => !e.all Text.isBlank) ≠ 1 := by
  have hkeys := fun (f g : Filter) (c : String) (hc : c ∈ g.channelNames) =>
    f.accepts_forChannel_iff hc
  refine ⟨fun f g c hc => ⟨?_, hkeys f g c hc⟩, ?_, ?_, ?_, ?_, ?_⟩
  · rw [hkeys f g c hc, f.key_eq_iff]
  · intro f f' g g' c hc hc' hchannels hf hg
    have hnames : f.channelNames = f'.channelNames := by
      unfold channelNames
      rw [hchannels]
    rw [Bool.eq_iff_iff, hkeys f g c hc, hkeys f' g' c hc', hnames,
      (f.key_eq_iff f' c).mpr hf, (g.key_eq_iff g' c).mpr hg]
  · intro f c hc
    exact (hkeys f f c hc).mpr ⟨hc, rfl⟩
  · intro f g c hf hg
    rw [Bool.eq_iff_iff, hkeys f g c hg, hkeys g f c hf]
    exact ⟨fun h => ⟨hg, h.2.symm⟩, fun h => ⟨hf, h.2.symm⟩⟩
  · intro f g h c hh hfg hgh
    obtain ⟨hg, hgh⟩ := (hkeys g h c hh).mp hgh
    obtain ⟨hf, hfg⟩ := (hkeys f g c hg).mp hfg
    exact (hkeys f h c hh).mpr ⟨hf, hfg.trans hgh⟩
  · intro n
    rw [accepts_eq_false_iff, length_channelNames]

/-- Three triggered filters that list a channel, among blanks, empty entries and repetitions, and
differ in parameters of other modes; and a text that names one channel twice. -/
theorem accepts_exact_sample :
    let f : Filter :=
      { mode := .triggered, channels := "\u00a0A ,,B,A", trigger := "T", pre := 1, window := 9 }
    let g : Filter :=
      { mode := .triggered, channels := "C, A", trigger := "T", pre := 1, delay := ⟨7⟩ }
    let h : Filter := { mode := .triggered, channels := "A\u3000,", trigger := "T", pre := 1 }
    let f' : Filter := { f with window := 0, delay := ⟨1⟩ }
    "A" ∈ f.channelNames ∧ "A" ∈ g.channelNames ∧ "A" ∈ h.channelNames ∧
      f.Agrees f' ∧ f.Agrees g ∧ g.Agrees h ∧
      f.accepts (g.forChannel "A") = true ∧
      f.accepts (g.forChannel "A") = f'.accepts (h.forChannel "A") ∧
      f.accepts (f.forChannel "A") = true ∧
      f.accepts (g.forChannel "A") = g.accepts (f.forChannel "A") ∧
      f.accepts (h.forChannel "A") = true ∧
      ∀ e : Filter, e.accepts { f with channels := " A,A" } = false := by
  intro f g h f'
  obtain ⟨hiff, hcongr, hself, hsymm, htrans, hnobody⟩ := accepts_exact
  have hf : "A" ∈ f.channelNames := by decide +kernel
  have hg : "A" ∈ g.channelNames := by decide +kernel
  have hh : "A" ∈ h.channelNames := by decide +kernel
  have hff' : f.Agrees f' := ⟨rfl, rfl, rfl, rfl⟩
  have hfg : f.Agrees g := ⟨rfl, rfl, rfl, rfl⟩
  have hgh : g.Agrees h := ⟨rfl, rfl, rfl, rfl⟩
  have hacc : f.accepts (g.forChannel "A") = true := (hiff f g "A" hg).1.mpr ⟨hf, hfg⟩
  have hacc' : g.accepts (h.forChannel "A") = true := (hiff g h "A" hh).1.mpr ⟨hg, hgh⟩
  exact ⟨hf, hg, hh, hff', hfg, hgh, hacc, hcongr f f' g h "A" hg hh rfl hff' hgh, hself f "A" hf,
    hsymm f g "A" hf hg, htrans f g h "A" hh hacc hacc', (hnobody _).mpr (by decide +kernel)⟩

end Filter

end Daq
