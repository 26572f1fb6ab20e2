import Daq.Duration
import Daq.Mode
import Daq.Text.Numeral

set_option autoImplicit false

/-!
# Poller keys

A poller key is the identity of a resolved request: subscriptions that resolve to one key share one
poller. Parameters that do not belong to the mode are zero or empty in a key built by the
constructor of its mode, so they never tell requests apart. Keys are ordered field by field.

## Main definitions

* `Daq.PollerKey` — mode, signal and parameters.
* `Daq.PollerKey.continuous`, `triggered`, `multiplexed`, `snapshot` — the keys of each mode.
* `Daq.PollerKey.render` — the text of a key in diagnostics.

## Main results

* Keys are totally ordered, and only equal keys compare equal.
-/

namespace Daq

open Std

namespace Mode

/-- The position of a mode in the list of modes. -/
def rank : Mode → Nat
  | .continuous => 0
  | .triggered => 1
  | .multiplexed => 2
  | .snapshot => 3

/-- Different modes have different positions. -/
theorem rank_injective {a b : Mode} (h : a.rank = b.rank) : a = b := by
  cases a <;> cases b <;> simp_all [rank]

end Mode

/-- The identity of one poller. -/
structure PollerKey where
  /-- How data is delivered. -/
  mode : Mode
  /-- The signal. -/
  signal : String
  /-- Samples before a trigger. -/
  pre : Nat
  /-- Samples from a trigger on. -/
  post : Nat
  /-- Greatest window length; zero selects the default. -/
  window : Nat
  /-- Delay after a trigger. -/
  delay : Duration
  /-- Trigger name; the empty name stands for any trigger. -/
  trigger : String
  deriving DecidableEq, Inhabited

namespace PollerKey

/-- The stream of a signal. -/
def continuous (signal : String) : PollerKey :=
  ⟨.continuous, signal, 0, 0, 0, .zero, ""⟩

/-- Captures of `pre` and `post` samples around a trigger. -/
def triggered (signal trigger : String) (pre post : Nat) : PollerKey :=
  { continuous signal with mode := .triggered, trigger, pre, post }

/-- Captures from trigger to trigger, at most `window` samples long. -/
def multiplexed (signal trigger : String) (window : Nat) : PollerKey :=
  { continuous signal with mode := .multiplexed, trigger, window }

/-- One sample `delay` after a trigger. -/
def snapshot (signal trigger : String) (delay : Duration) : PollerKey :=
  { continuous signal with mode := .snapshot, trigger, delay }

/-- Keys are compared field by field. -/
def order : PollerKey → PollerKey → Ordering :=
  compareLex (compareOn fun k => k.mode.rank) <|
    compareLex (compareOn fun k => k.signal) <|
    compareLex (compareOn fun k => k.pre) <|
    compareLex (compareOn fun k => k.post) <|
    compareLex (compareOn fun k => k.window) <|
    compareLex (compareOn fun k => k.delay.nanoseconds) <|
    compareOn fun k => k.trigger

/-- Keys are ordered. -/
instance : Ord PollerKey := ⟨order⟩

/-- The order of keys is transitive, as the order of each field is. -/
instance : TransOrd PollerKey :=
  inferInstanceAs (TransCmp (compareLex _ (compareLex _ (compareLex _ (compareLex _
    (compareLex _ (compareLex _ (compareOn _))))))))

/-- Keys that compare as equal are equal in every field. -/
instance : LawfulEqOrd PollerKey where
  eq_of_compare {a b} h := by
    obtain ⟨m, s, p, q, w, ⟨d⟩, t⟩ := a
    obtain ⟨m', s', p', q', w', ⟨d'⟩, t'⟩ := b
    replace h : order _ _ = .eq := h
    simp only [order, compareLex, compareOn, Ordering.then_eq_eq] at h
    obtain ⟨h1, h2, h3, h4, h5, h6, h7⟩ := h
    obtain rfl := Mode.rank_injective (LawfulEqOrd.eq_of_compare (α := Nat) h1)
    obtain rfl := LawfulEqOrd.eq_of_compare (α := String) h2
    obtain rfl := LawfulEqOrd.eq_of_compare (α := Nat) h3
    obtain rfl := LawfulEqOrd.eq_of_compare (α := Nat) h4
    obtain rfl := LawfulEqOrd.eq_of_compare (α := Nat) h5
    obtain rfl := LawfulEqOrd.eq_of_compare (α := Nat) h6
    obtain rfl := LawfulEqOrd.eq_of_compare (α := String) h7
    rfl

/-- The text of a key: mode, signal and, in brackets, the parameters of the mode. -/
def render (k : PollerKey) : String :=
  k.mode.name ++ ":" ++ k.signal ++
    match k.mode with
    | .continuous => ""
    | .triggered =>
      "[trigger='" ++ k.trigger ++ "', pre=" ++ Text.Numeral.render k.pre ++
        ", post=" ++ Text.Numeral.render k.post ++ "]"
    | .multiplexed =>
      "[trigger='" ++ k.trigger ++ "', window=" ++ Text.Numeral.render k.window ++ "]"
    | .snapshot => "[trigger='" ++ k.trigger ++ "', delay=" ++ k.delay.render ++ "]"

end PollerKey

end Daq
