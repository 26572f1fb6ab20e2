import Daq.Filter
import Daq.Proofs.Table
import Daq.Proofs.Text.Numeral

set_option autoImplicit false

/-!
# Filters as parameters

A filter is written as named parameters, of which those with a default are left out, and it is read
from parameters with blanks trimmed, counts bounded and defaults filled in. Two kinds of filters
cannot be said in this way: a triggered filter that asks for no sample, and a delay of more than
sixty-four bits. All others come back, and whatever is read can be said.

## Main definitions

* `Daq.Filter.Expressible` — the filters that parameters can say.
* `Daq.Filter.written` — the parameters of a filter, with those that are left out.

## Main results

* `Daq.Filter.ofParams_toParams` — what a written filter is read as.
* `Daq.Filter.expressible_of_ofParams` — what is read is expressible.
* `Daq.Filter.params_round_trip` — exactly the expressible filters are read back.
-/

namespace Daq.Filter

open Text

/-! ### What is written -/

/-- What a filter has to be so that parameters can say it. -/
structure Expressible (f : Filter) : Prop where
  /-- A triggered filter asks for at least one sample. -/
  window : ¬ (f.mode = .triggered ∧ f.pre = 0 ∧ f.post = 0)
  /-- The delay has sixty-four bits. -/
  delay : f.delay.nanoseconds < countBound

/-- The parameters of a filter; none stands for one that is left out. -/
def written (f : Filter) : List (String × Option String) :=
  [(modeParam, some f.mode.name),
    (channelsParam, if f.channels = "" then none else some f.channels),
    (triggerParam, if f.trigger = "" then none else some f.trigger),
    (preParam, if f.pre = 0 then none else some (Numeral.render f.pre)),
    (postParam, if f.post = 0 then none else some (Numeral.render f.post)),
    (windowParam, if f.window = 0 then none else some (Numeral.render f.window)),
    (delayParam,
      if f.delay.nanoseconds = 0 then none else some (Numeral.render f.delay.nanoseconds))]

/-- No name is used twice. -/
lemma written_distinct (f : Filter) : (f.written.map Prod.fst).Nodup := by
  change [modeParam, channelsParam, triggerParam, preParam, postParam, windowParam,
    delayParam].Nodup
  decide

/-- A filter is written as the parameters that are not left out. -/
lemma toParams_eq (f : Filter) :
    f.toParams =
      Table.ofList (f.written.flatMap fun e => (e.2.map fun text => (e.1, text)).toList) := by
  have htext : ∀ name text, textEntry name text =
      ((if text = "" then none else some text).map fun t => (name, t)).toList := by
    intro name text
    unfold textEntry
    split <;> rfl
  have hcount : ∀ name n, countEntry name n =
      ((if n = 0 then none else some (Numeral.render n)).map fun t => (name, t)).toList := by
    intro name n
    unfold countEntry
    split <;> rfl
  simp only [toParams, htext, hcount, written, List.flatMap_cons, List.flatMap_nil, List.append_nil,
    List.append_assoc, Option.map_some, Option.toList_some]

/-- Names that are used once are used at most once by what is not left out. -/
lemma nodup_kept {columns : List (String × Option String)} (h : (columns.map Prod.fst).Nodup) :
    ((columns.flatMap fun e => (e.2.map fun t => (e.1, t)).toList).map Prod.fst).Nodup := by
  refine h.sublist ?_
  clear h
  induction columns with
  | nil => exact .slnil
  | cons e columns ih =>
    obtain ⟨name, text⟩ := e
    cases text with
    | none => exact ih.cons name
    | some t => exact ih.cons_cons name

/-- **A parameter is found as it was written**, and not at all if it was left out. -/
lemma get?_toParams (f : Filter) {name : String} {text : Option String}
    (h : (name, text) ∈ f.written) : f.toParams.get? name = text := by
  ext v
  rw [toParams_eq, Table.get?_ofList_eq_some_iff (nodup_kept f.written_distinct), List.mem_flatMap]
  constructor
  · rintro ⟨⟨n, t⟩, hmem, hv⟩
    obtain ⟨u, rfl, hu⟩ : ∃ u, t = some u ∧ (n, u) = (name, v) := by simpa using hv
    cases hu
    exact congrArg Prod.snd (List.inj_on_of_nodup_map f.written_distinct h hmem rfl)
  · rintro rfl
    exact ⟨_, h, by simp⟩

/-! ### What is read -/

/-- The mode is always written, and read back. -/
lemma readMode_toParams (f : Filter) : readMode f.toParams = .ok f.mode := by
  have hmem : (modeParam, some f.mode.name) ∈ f.written := by simp [written]
  rw [readMode, f.get?_toParams hmem]
  exact f.mode.parse_name

/-- A text that was left out or written is read back. -/
lemma getD_toParams (f : Filter) (name text : String)
    (h : (name, if text = "" then none else some text) ∈ f.written) :
    (f.toParams.get? name).getD "" = text := by
  rw [f.get?_toParams h]
  split
  · rename_i hempty
    exact hempty.symm
  · rfl

/-- The complaint about a count that is too large. -/
def excess (name : String) (n : Nat) : AcqError :=
  .deserialization name ("'" ++ Numeral.render n ++ "': " ++ Numeral.Fault.tooLarge.message)

/-- A count that was left out or written is read back, unless it is too large. -/
lemma readCount_toParams (f : Filter) (name : String) (n : Nat)
    (h : (name, if n = 0 then none else some (Numeral.render n)) ∈ f.written) :
    readCount f.toParams name = if n < countBound then .ok n else .error (excess name n) := by
  have hbound : 0 < countBound := by decide
  rw [readCount, f.get?_toParams h]
  by_cases hzero : n = 0
  · rw [if_pos hzero, hzero, if_pos hbound]
  · rw [if_neg hzero]
    dsimp only
    rw [Numeral.read_render hbound]
    by_cases hn : n < countBound
    · rw [if_pos hn, if_pos hn]
    · rw [if_neg hn, if_neg hn]
      rfl

/-- **What a written filter is read as**, if its counts have sixty-four bits: a delay that is too
large is complained about first, then a window without samples; any other filter comes back. -/
theorem ofParams_toParams (f : Filter) (hpre : f.pre < countBound) (hpost : f.post < countBound)
    (hwindow : f.window < countBound) :
    ofParams f.toParams =
      if ¬ f.delay.nanoseconds < countBound then
        .error (excess delayParam f.delay.nanoseconds)
      else if f.mode = .triggered ∧ f.pre + f.post = 0 then
        .error (.invalidArgument ("triggered acquisition needs " ++ preParam ++ " or " ++ postParam))
      else .ok f := by
  have hreadDelay := f.readCount_toParams delayParam f.delay.nanoseconds (by simp [written])
  have hreadPre := f.readCount_toParams preParam f.pre (by simp [written])
  have hreadPost := f.readCount_toParams postParam f.post (by simp [written])
  have hreadWindow := f.readCount_toParams windowParam f.window (by simp [written])
  have hchannels := f.getD_toParams channelsParam f.channels (by simp [written])
  have htrigger := f.getD_toParams triggerParam f.trigger (by simp [written])
  rw [if_pos hpre] at hreadPre
  rw [if_pos hpost] at hreadPost
  rw [if_pos hwindow] at hreadWindow
  unfold ofParams
  rw [f.readMode_toParams, hreadDelay, hreadPre, hreadPost, hreadWindow, hchannels, htrigger]
  by_cases hdelay : f.delay.nanoseconds < countBound
  · rw [if_pos hdelay, if_neg (not_not.mpr hdelay)]
    rfl
  · rw [if_neg hdelay, if_pos hdelay]
    rfl

/-- A step that is followed by others has succeeded if all of them have. -/
lemma exists_of_bind_eq_ok {α β : Type} {x : Except AcqError α} {f : α → Except AcqError β} {b : β}
    (h : (x >>= f) = .ok b) : ∃ a, x = .ok a ∧ f a = .ok b := by
  cases x with
  | error e => cases h
  | ok a => exact ⟨a, rfl, h⟩

/-- A count that is read has sixty-four bits. -/
lemma lt_of_readCount {params : Params} {name : String} {n : Nat}
    (h : readCount params name = .ok n) : n < countBound := by
  unfold readCount at h
  split at h
  · cases h
    decide
  · split at h
    · rename_i hread
      cases h
      exact ((Numeral.read_eq_ok_iff (by decide)).mp hread).2
    · cases h

/-- **What is read is expressible**, and its counts have sixty-four bits. -/
theorem expressible_of_ofParams {params : Params} {f : Filter} (h : ofParams params = .ok f) :
    f.Expressible ∧ f.pre < countBound ∧ f.post < countBound ∧ f.window < countBound := by
  obtain ⟨mode, -, h⟩ := exists_of_bind_eq_ok h
  obtain ⟨delay, hdelay, h⟩ := exists_of_bind_eq_ok h
  obtain ⟨pre, hpre, h⟩ := exists_of_bind_eq_ok h
  obtain ⟨post, hpost, h⟩ := exists_of_bind_eq_ok h
  obtain ⟨window, hwindow, h⟩ := exists_of_bind_eq_ok h
  split at h
  · cases h
  · rename_i hasked
    cases h
    refine ⟨⟨?_, lt_of_readCount hdelay⟩, lt_of_readCount hpre, lt_of_readCount hpost,
      lt_of_readCount hwindow⟩
    rintro ⟨hmode, hnopre, hnopost⟩
    exact hasked ⟨hmode, Nat.add_eq_zero_iff.mpr ⟨hnopre, hnopost⟩⟩

/-! ### The round trip -/

/-- **Exactly the expressible filters come back from their parameters.** Take any filter with counts
of sixty-four bits, and any texts and delay. If it is not triggered without samples and its delay has
sixty-four bits, it is read back from what it is written as; if not, reading fails. Whatever
parameters a filter was read from, it is of the first kind, so it is always read back. -/
theorem params_round_trip :
    (∀ f : Filter, f.pre + f.post < countBound → f.window < countBound →
      (ofParams f.toParams = .ok f ↔ f.Expressible) ∧
      (¬ f.Expressible → ∃ e, ofParams f.toParams = .error e)) ∧
    ∀ params f, ofParams params = .ok f → f.Expressible ∧ ofParams f.toParams = .ok f := by
  have hread : ∀ f : Filter, f.pre < countBound → f.post < countBound → f.window < countBound →
      f.Expressible → ofParams f.toParams = .ok f := by
    intro f hpre hpost hwindow hf
    have hsamples : ¬ (f.mode = .triggered ∧ f.pre + f.post = 0) := fun h =>
      hf.window ⟨h.1, Nat.add_eq_zero_iff.mp h.2⟩
    rw [f.ofParams_toParams hpre hpost hwindow, if_neg (not_not.mpr hf.delay), if_neg hsamples]
  have hfails : ∀ f : Filter, f.pre < countBound → f.post < countBound → f.window < countBound →
      ¬ f.Expressible → ∃ e, ofParams f.toParams = .error e := by
    intro f hpre hpost hwindow hf
    rw [f.ofParams_toParams hpre hpost hwindow]
    by_cases hdelay : f.delay.nanoseconds < countBound
    · have hnone : f.mode = .triggered ∧ f.pre + f.post = 0 := by
        by_contra hsamples
        exact hf ⟨fun h => hsamples ⟨h.1, Nat.add_eq_zero_iff.mpr h.2⟩, hdelay⟩
      rw [if_neg (not_not.mpr hdelay), if_pos hnone]
      exact ⟨_, rfl⟩
    · rw [if_pos hdelay]
      exact ⟨_, rfl⟩
  refine ⟨fun f hcounts hwindow => ?_, fun params f h => ?_⟩
  · have hpre : f.pre < countBound := by omega
    have hpost : f.post < countBound := by omega
    refine ⟨⟨fun h => (expressible_of_ofParams h).1, hread f hpre hpost hwindow⟩,
      hfails f hpre hpost hwindow⟩
  · obtain ⟨hf, hpre, hpost, hwindow⟩ := expressible_of_ofParams h
    exact ⟨hf, hread f hpre hpost hwindow hf⟩

/-- A triggered filter with the greatest count and delay comes back, and with a delay one nanosecond
longer it does not. A filter that was read from parameters with blanks and defaults comes back. -/
theorem params_round_trip_sample :
    let f : Filter :=
      { mode := .triggered, channels := " A,,B ", trigger := "&=", post := countBound - 1,
        delay := ⟨countBound - 1⟩ }
    let params : Params := Table.ofList [(windowParam, " +07"), (modeParam, "snapshot")]
    ofParams f.toParams = .ok f ∧
      (∃ e, ofParams { f with delay := ⟨countBound⟩ }.toParams = .error e) ∧
      ∃ g, ofParams params = .ok g ∧ ofParams g.toParams = .ok g := by
  intro f params
  obtain ⟨hwritten, hread⟩ := params_round_trip
  have hlong : ¬ ({ f with delay := ⟨countBound⟩ } : Filter).Expressible := fun h =>
    absurd h.delay (by decide)
  have hparams : ofParams params = .ok { mode := .snapshot, window := 7 } := by decide +kernel
  refine ⟨?_, ?_, _, hparams, (hread _ _ hparams).2⟩
  · exact (hwritten f (by decide) (by decide)).1.mpr ⟨by decide, by decide⟩
  · exact (hwritten _ (by decide) (by decide)).2 hlong

end Daq.Filter
