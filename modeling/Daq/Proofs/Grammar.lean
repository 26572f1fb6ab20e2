import Daq.Proofs.Filter

set_option autoImplicit false

/-!
# What parameters say

Parameters say a filter in which every missing parameter has its default. Reading them is a sequence
of checks: of the mode, of four counts, and of the window of a triggered filter. Parameters are read
exactly if they say a filter, and they are refused with the complaint of the first check that fails,
whatever the mode and whatever fails after it.

## Main definitions

* `Daq.Filter.SaysMode`, `Daq.Filter.SaysCount`, `Daq.Filter.Means` — what parameters say.
* `Daq.Filter.Check`, `Daq.Filter.Check.all` — the checks in their order.
* `Daq.Filter.Check.Fails` — when a check fails, and with which complaint.
* `Daq.Filter.Check.First` — the first of several checks that fails.

## Main results

* `Daq.Filter.ofParams_eq_ok_iff` — what is read is what the parameters say.
* `Daq.Filter.ofParams_eq_error_iff` — the complaint is that of the first check that fails.
* `Daq.Filter.ofParams_exact` — both, with the exact condition for success.
-/

namespace Daq

/-- A mode is found under its word. -/
lemma Mode.name_of_ofName? {text : String} {m : Mode} (h : Mode.ofName? text = some m) :
    m.name = text := by
  unfold Mode.ofName? at h
  have hname := List.find?_some h
  exact eq_of_beq hname

/-- A word under which no mode is found is the word of none. -/
lemma Mode.name_ne_of_ofName? {text : String} (h : Mode.ofName? text = none) (m : Mode) :
    text ≠ m.name := by
  rintro rfl
  unfold Mode.ofName? at h
  have hnot := List.find?_eq_none.mp h m (by cases m <;> decide)
  exact hnot (beq_iff_eq.mpr rfl)

namespace Filter

open Text

/-! ### Meanings -/

/-- The parameters say the mode by its word, or the continuous mode by none. -/
def SaysMode (params : Params) (m : Mode) : Prop :=
  match params.get? modeParam with
  | none => m = .continuous
  | some text => text = m.name

/-- The parameter `name` says a count of sixty-four bits by a numeral with any blanks around it, or
zero by its absence. -/
def SaysCount (params : Params) (name : String) (n : Nat) : Prop :=
  match params.get? name with
  | none => n = 0
  | some raw => Numeral.Says (trimWith isBlank raw.toList) n ∧ n < countBound

/-- The parameters say the filter. -/
structure Means (params : Params) (f : Filter) : Prop where
  /-- The mode. -/
  mode : SaysMode params f.mode
  /-- The delay in nanoseconds. -/
  delay : SaysCount params delayParam f.delay.nanoseconds
  /-- The samples before a trigger. -/
  pre : SaysCount params preParam f.pre
  /-- The samples from a trigger on. -/
  post : SaysCount params postParam f.post
  /-- The greatest window length. -/
  window : SaysCount params windowParam f.window
  /-- The channels, none by default. -/
  channels : f.channels = (params.get? channelsParam).getD ""
  /-- The trigger, any by default. -/
  trigger : f.trigger = (params.get? triggerParam).getD ""
  /-- A triggered filter asks for at least one sample. -/
  samples : ¬ (f.mode = .triggered ∧ f.pre = 0 ∧ f.post = 0)

/-- Parameters say one mode. -/
lemma SaysMode.unique {params : Params} {m m' : Mode} (hm : SaysMode params m)
    (hm' : SaysMode params m') : m = m' := by
  unfold SaysMode at hm hm'
  cases hget : params.get? modeParam with
  | none =>
    rw [hget] at hm hm'
    exact hm.trans hm'.symm
  | some text =>
    rw [hget] at hm hm'
    have hparse : Mode.parse m.name = Mode.parse m'.name := by rw [← hm, ← hm']
    rw [m.parse_name, m'.parse_name] at hparse
    exact Except.ok.inj hparse

/-- A parameter says one count. -/
lemma SaysCount.unique {params : Params} {name : String} {n n' : Nat}
    (hn : SaysCount params name n) (hn' : SaysCount params name n') : n = n' := by
  unfold SaysCount at hn hn'
  cases hget : params.get? name with
  | none =>
    rw [hget] at hn hn'
    exact hn.trans hn'.symm
  | some raw =>
    rw [hget] at hn hn'
    exact hn.1.unique hn'.1

/-! ### Checks -/

/-- What is checked before parameters are read. -/
inductive Check where
  /-- The word of the mode. -/
  | mode
  /-- The numeral of a count. -/
  | count (name : String)
  /-- The samples of a triggered filter. -/
  | samples

namespace Check

/-- The checks, in their order. -/
def all : List Check :=
  [mode, count delayParam, count preParam, count postParam, count windowParam, samples]

/-- When a check fails, and with which complaint. Only the last one depends on the mode. -/
def Fails (params : Params) : Check → AcqError → Prop
  | mode, e => ∃ text, params.get? modeParam = some text ∧ (∀ m : Mode, text ≠ m.name) ∧
      e = .invalidArgument ("unknown acquisition mode '" ++ text ++ "'")
  | count name, e => ∃ raw, params.get? name = some raw ∧
      (¬ ∃ n, Numeral.Says (trimWith isBlank raw.toList) n ∧ n < countBound) ∧
      e = .deserialization name ("'" ++ raw ++ "': " ++
        (Numeral.reason countBound (trimWith isBlank raw.toList)).message)
  | samples, e => SaysMode params .triggered ∧ SaysCount params preParam 0 ∧
      SaysCount params postParam 0 ∧
      e = .invalidArgument ("triggered acquisition needs " ++ preParam ++ " or " ++ postParam)

/-- The first of several checks that fails does so with this complaint. -/
def First (params : Params) (checks : List Check) (e : AcqError) : Prop :=
  ∃ before check after, checks = before ++ check :: after ∧ check.Fails params e ∧
    ∀ c ∈ before, ∀ e', ¬ c.Fails params e'

/-- The first check that fails is the one in front, or that one passes and it is among the rest. -/
lemma first_cons {params : Params} {c : Check} {checks : List Check} {e : AcqError} :
    First params (c :: checks) e ↔
      c.Fails params e ∨ (∀ e', ¬ c.Fails params e') ∧ First params checks e := by
  constructor
  · rintro ⟨before, check, after, hsplit, hfails, hpass⟩
    cases before with
    | nil =>
      obtain ⟨rfl, -⟩ := List.cons.inj hsplit
      exact .inl hfails
    | cons d before =>
      obtain ⟨rfl, rfl⟩ := List.cons.inj hsplit
      exact .inr ⟨hpass c List.mem_cons_self, before, check, after, rfl, hfails,
        fun d hd => hpass d (List.mem_cons_of_mem c hd)⟩
  · rintro (hfails | ⟨hc, before, check, after, rfl, hfails, hpass⟩)
    · exact ⟨[], c, checks, rfl, hfails, by simp⟩
    · refine ⟨c :: before, check, after, rfl, hfails, ?_⟩
      intro d hd
      rcases List.mem_cons.mp hd with rfl | hd
      · exact hc
      · exact hpass d hd

/-- No check fails among none, so if the samples are checked last, theirs is the only complaint. -/
lemma first_samples {params : Params} {e : AcqError} :
    First params [samples] e ↔ samples.Fails params e := by
  rw [first_cons]
  constructor
  · rintro (h | ⟨-, before, check, after, hsplit, -⟩)
    · exact h
    · exact absurd hsplit (by simp)
  · exact Or.inl

/-- Where mode and counts are known, the samples are missing if the mode is triggered and there are
none of them. -/
lemma fails_samples_iff {params : Params} {mode : Mode} {pre post : Nat} {e : AcqError}
    (hmode : SaysMode params mode) (hpre : SaysCount params preParam pre)
    (hpost : SaysCount params postParam post) :
    samples.Fails params e ↔ (mode = .triggered ∧ pre + post = 0) ∧
      e = .invalidArgument
        ("triggered acquisition needs " ++ preParam ++ " or " ++ postParam) := by
  rw [Fails, Nat.add_eq_zero_iff]
  constructor
  · rintro ⟨htriggered, hnopre, hnopost, he⟩
    exact ⟨⟨hmode.unique htriggered, hpre.unique hnopre, hpost.unique hnopost⟩, he⟩
  · rintro ⟨⟨rfl, rfl, rfl⟩, he⟩
    exact ⟨hmode, hpre, hpost, he⟩

end Check

/-! ### Steps of reading -/

/-- The mode is read as the parameters say it. -/
lemma readMode_eq_ok_iff {params : Params} {m : Mode} :
    readMode params = .ok m ↔ SaysMode params m := by
  unfold readMode SaysMode
  cases params.get? modeParam with
  | none => simp [eq_comm]
  | some text =>
    dsimp only
    constructor
    · intro h
      unfold Mode.parse at h
      split at h
      · rename_i found hfound
        obtain rfl : found = m := Except.ok.inj h
        exact (Mode.name_of_ofName? hfound).symm
      · cases h
    · rintro rfl
      exact m.parse_name

/-- A mode is refused if no mode has its word. -/
lemma readMode_eq_error_iff {params : Params} {e : AcqError} :
    readMode params = .error e ↔ Check.mode.Fails params e := by
  unfold readMode Check.Fails
  cases params.get? modeParam with
  | none => simp
  | some text =>
    simp only [Option.some.injEq, exists_eq_left']
    unfold Mode.parse
    split
    · rename_i found hfound
      have hname := Mode.name_of_ofName? hfound
      constructor
      · intro h
        cases h
      · rintro ⟨hno, -⟩
        exact absurd hname.symm (hno found)
    · rename_i hnone
      rw [Except.error.injEq, eq_comm]
      exact ⟨fun h => ⟨Mode.name_ne_of_ofName? hnone, h⟩, fun h => h.2⟩

/-- A count is read as its parameter says it. -/
lemma readCount_eq_ok_iff {params : Params} {name : String} {n : Nat} :
    readCount params name = .ok n ↔ SaysCount params name n := by
  have hbound : 0 < countBound := by decide
  unfold readCount SaysCount
  cases params.get? name with
  | none => simp [eq_comm]
  | some raw =>
    dsimp only
    rw [← Numeral.read_eq_ok_iff hbound]
    cases Numeral.read countBound (trimWith isBlank raw.toList) with
    | ok m => simp
    | error fault => simp

/-- A count is refused if its text is no numeral of a count, with the reason for that. -/
lemma readCount_eq_error_iff {params : Params} {name : String} {e : AcqError} :
    readCount params name = .error e ↔ (Check.count name).Fails params e := by
  have hbound : 0 < countBound := by decide
  rw [readCount, Check.Fails]
  cases params.get? name with
  | none => simp
  | some raw =>
    simp only [Option.some.injEq, exists_eq_left']
    cases hread : Numeral.read countBound (trimWith isBlank raw.toList) with
    | ok m =>
      have hm := (Numeral.read_eq_ok_iff hbound).mp hread
      constructor
      · intro h
        cases h
      · rintro ⟨hno, -⟩
        exact absurd ⟨m, hm⟩ hno
    | error fault =>
      obtain ⟨hno, rfl⟩ := (Numeral.read_eq_error_iff hbound).mp hread
      dsimp only
      rw [Except.error.injEq, eq_comm]
      exact ⟨fun h => ⟨hno, h⟩, fun h => h.2⟩

/-! ### Reading as a whole -/

/-- The complaint about a sequence of checks, of which the first is done by `x` and the others
follow. -/
lemma Check.first_of_bind {α β : Type} {params : Params} {c : Check} {checks : List Check}
    {e : AcqError} {x : Except AcqError α} {next : α → Except AcqError β}
    (hc : ∀ e', x = .error e' ↔ c.Fails params e')
    (hnext : ∀ a, x = .ok a → (next a = .error e ↔ First params checks e)) :
    (x >>= next) = .error e ↔ First params (c :: checks) e := by
  rw [first_cons, ← hc]
  cases x with
  | error e' =>
    have hstops : (Except.error e' >>= next) = .error e' := rfl
    rw [hstops, Except.error.injEq, Except.error.injEq]
    constructor
    · exact Or.inl
    · rintro (h | ⟨hpass, -⟩)
      · exact h
      · exact absurd ((hc e').mp rfl) (hpass e')
  | ok a =>
    have hgoes : (Except.ok a >>= next) = next a := rfl
    rw [hgoes, hnext a rfl]
    constructor
    · intro h
      refine .inr ⟨fun e' hfails => ?_, h⟩
      cases (hc e').mpr hfails
    · rintro (h | ⟨-, h⟩)
      · cases h
      · exact h

/-- **The complaint is that of the first check that fails.** -/
theorem ofParams_eq_error_iff {params : Params} {e : AcqError} :
    ofParams params = .error e ↔ Check.First params Check.all e := by
  unfold ofParams Check.all
  refine Check.first_of_bind (fun _ => readMode_eq_error_iff) fun mode hmode => ?_
  refine Check.first_of_bind (fun _ => readCount_eq_error_iff) fun delay _ => ?_
  refine Check.first_of_bind (fun _ => readCount_eq_error_iff) fun pre hpre => ?_
  refine Check.first_of_bind (fun _ => readCount_eq_error_iff) fun post hpost => ?_
  refine Check.first_of_bind (fun _ => readCount_eq_error_iff) fun window _ => ?_
  rw [readMode_eq_ok_iff] at hmode
  rw [readCount_eq_ok_iff] at hpre hpost
  rw [Check.first_samples, Check.fails_samples_iff hmode hpre hpost]
  split
  · rename_i hnone
    rw [Except.error.injEq, eq_comm]
    exact ⟨fun h => ⟨hnone, h⟩, fun h => h.2⟩
  · rename_i hsome
    constructor
    · intro h
      cases h
    · rintro ⟨hnone, -⟩
      exact absurd hnone hsome

/-- **What is read is what the parameters say.** -/
theorem ofParams_eq_ok_iff {params : Params} {f : Filter} :
    ofParams params = .ok f ↔ Means params f := by
  constructor
  · intro h
    obtain ⟨mode, hmode, h⟩ := exists_of_bind_eq_ok h
    obtain ⟨delay, hdelay, h⟩ := exists_of_bind_eq_ok h
    obtain ⟨pre, hpre, h⟩ := exists_of_bind_eq_ok h
    obtain ⟨post, hpost, h⟩ := exists_of_bind_eq_ok h
    obtain ⟨window, hwindow, h⟩ := exists_of_bind_eq_ok h
    rw [readMode_eq_ok_iff] at hmode
    rw [readCount_eq_ok_iff] at hdelay hpre hpost hwindow
    split at h
    · cases h
    · rename_i hsome
      cases h
      refine ⟨hmode, hdelay, hpre, hpost, hwindow, rfl, rfl, ?_⟩
      rintro ⟨htriggered, hnopre, hnopost⟩
      exact hsome ⟨htriggered, Nat.add_eq_zero_iff.mpr ⟨hnopre, hnopost⟩⟩
  · intro h
    have hsome : ¬ (f.mode = .triggered ∧ f.pre + f.post = 0) := by
      rintro ⟨htriggered, hnone⟩
      exact h.samples ⟨htriggered, Nat.add_eq_zero_iff.mp hnone⟩
    unfold ofParams
    rw [readMode_eq_ok_iff.mpr h.mode, readCount_eq_ok_iff.mpr h.delay,
      readCount_eq_ok_iff.mpr h.pre, readCount_eq_ok_iff.mpr h.post,
      readCount_eq_ok_iff.mpr h.window, ← h.channels, ← h.trigger]
    exact if_neg hsome

/-- Parameters say a filter if each of them says something, and not a triggered filter without
samples. -/
lemma exists_means_iff {params : Params} :
    (∃ f, Means params f) ↔ (∃ m, SaysMode params m) ∧
      (∀ name ∈ [delayParam, preParam, postParam, windowParam], ∃ n, SaysCount params name n) ∧
      ¬ (SaysMode params .triggered ∧ SaysCount params preParam 0 ∧
        SaysCount params postParam 0) := by
  constructor
  · rintro ⟨f, h⟩
    refine ⟨⟨_, h.mode⟩, ?_, ?_⟩
    · simp only [List.forall_mem_cons, List.not_mem_nil, false_implies, implies_true, and_true]
      exact ⟨⟨_, h.delay⟩, ⟨_, h.pre⟩, ⟨_, h.post⟩, ⟨_, h.window⟩⟩
    · rintro ⟨htriggered, hpre, hpost⟩
      exact h.samples ⟨h.mode.unique htriggered, h.pre.unique hpre, h.post.unique hpost⟩
  · rintro ⟨⟨mode, hmode⟩, hcounts, hsamples⟩
    obtain ⟨delay, hdelay⟩ := hcounts delayParam (by simp)
    obtain ⟨pre, hpre⟩ := hcounts preParam (by simp)
    obtain ⟨post, hpost⟩ := hcounts postParam (by simp)
    obtain ⟨window, hwindow⟩ := hcounts windowParam (by simp)
    refine ⟨⟨mode, _, _, pre, post, window, ⟨delay⟩⟩, hmode, hdelay, hpre, hpost, hwindow, rfl, rfl,
      ?_⟩
    rintro ⟨rfl, rfl, rfl⟩
    exact hsamples ⟨hmode, hpre, hpost⟩

/-- The parameters that matter. -/
def knownParams : List String :=
  [modeParam, channelsParam, triggerParam, preParam, postParam, windowParam, delayParam]

/-- Other parameters do not matter. -/
lemma ofParams_congr {params params' : Params}
    (h : ∀ name ∈ knownParams, params'.get? name = params.get? name) :
    ofParams params' = ofParams params := by
  have hmode := h modeParam (by simp [knownParams])
  have hchannels := h channelsParam (by simp [knownParams])
  have htrigger := h triggerParam (by simp [knownParams])
  have hpre := h preParam (by simp [knownParams])
  have hpost := h postParam (by simp [knownParams])
  have hwindow := h windowParam (by simp [knownParams])
  have hdelay := h delayParam (by simp [knownParams])
  unfold ofParams readMode readCount
  rw [hmode, hchannels, htrigger, hpre, hpost, hwindow, hdelay]

/-- **The grammar of parameters, and which of several faults is complained about.**

Parameters are read exactly if they say a mode by no word or by exactly its own, say each of the four
counts by no text or by a numeral below the bound with any blanks around it, and do not say a
triggered filter without samples. What is read has the values that they say, or the defaults. Any
other parameters are refused with the complaint of the first check that fails, in the order of mode,
delay, samples before, samples after, window, and missing samples; a count is checked in every mode,
and the complaint names its parameter. No other parameter changes any of this. -/
theorem ofParams_exact (params : Params) :
    ((∃ f, ofParams params = .ok f) ↔ (∃ m, SaysMode params m) ∧
        (∀ name ∈ [delayParam, preParam, postParam, windowParam], ∃ n, SaysCount params name n) ∧
        ¬ (SaysMode params .triggered ∧ SaysCount params preParam 0 ∧
          SaysCount params postParam 0)) ∧
      (∀ f, ofParams params = .ok f ↔ Means params f) ∧
      (∀ e, ofParams params = .error e ↔ Check.First params Check.all e) ∧
      ∀ params' : Params, (∀ name ∈ knownParams, params'.get? name = params.get? name) →
        ofParams params' = ofParams params := by
  refine ⟨?_, fun f => ofParams_eq_ok_iff, fun e => ofParams_eq_error_iff, fun _ => ofParams_congr⟩
  simp only [ofParams_eq_ok_iff]
  exact exists_means_iff

/-- The greatest delay with blanks, a sign and zeros in front is read, whatever else there is; a
count that is one too large and a sign without digits are faults in any mode, and the count is
complained about first. -/
theorem ofParams_exact_sample :
    let good : Params := Table.ofList
      [(modeParam, "snapshot"), (delayParam, "\u2003+00018446744073709551615 ")]
    let more : Params := Table.ofList
      [(modeParam, "snapshot"), (delayParam, "\u2003+00018446744073709551615 "), ("speed", "-")]
    let bad : Params := Table.ofList
      [(modeParam, "continuous"), (windowParam, "+"), (preParam, "18446744073709551616")]
    Means good { mode := .snapshot, delay := ⟨countBound - 1⟩ } ∧
      (∀ name ∈ knownParams, more.get? name = good.get? name) ∧ ofParams more = ofParams good ∧
      Check.First bad Check.all (.deserialization preParam
        "'18446744073709551616': number too large to fit in target type") := by
  intro good more bad
  obtain ⟨-, hmeans, -, hcongr⟩ := ofParams_exact good
  obtain ⟨-, -, hfirst, -⟩ := ofParams_exact bad
  have hknown : ∀ name ∈ knownParams, more.get? name = good.get? name := by decide +kernel
  refine ⟨(hmeans _).mp ?_, hknown, hcongr more hknown, (hfirst _).mp ?_⟩
  · decide +kernel
  · decide +kernel

end Filter

end Daq
