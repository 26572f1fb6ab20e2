import Daq.Key
import Daq.Table
import Daq.Text.Blank

set_option autoImplicit false

/-!
# Filters

A filter is what a subscriber asks for, read from the parameters of its topic. It lists channels,
and for each channel it names one poller key. A notification about a single channel belongs to a
subscriber whose filter lists that channel and resolves it to the same key.

## Main definitions

* `Daq.Filter` — mode, channels and parameters.
* `Daq.Filter.ofParams`, `Daq.Filter.toParams` — reading and writing of parameters.
* `Daq.Filter.channelNames`, `Daq.Filter.key` — the channels and their poller keys.
* `Daq.Filter.accepts` — routing.
-/

namespace Daq

open Text

/-- Named parameters of a request. -/
abbrev Params := Table String String

/-- What a subscriber asks for. -/
structure Filter where
  /-- How data is delivered. -/
  mode : Mode := .continuous
  /-- Channel names, separated by commas. -/
  channels : String := ""
  /-- Trigger name; the empty name stands for any trigger. -/
  trigger : String := ""
  /-- Samples before a trigger. -/
  pre : Nat := 0
  /-- Samples from a trigger on. -/
  post : Nat := 0
  /-- Greatest window length; zero selects the default. -/
  window : Nat := 0
  /-- Delay after a trigger. -/
  delay : Duration := .zero
  deriving DecidableEq, Inhabited

namespace Filter

/-- Parameter that names the mode. -/
def modeParam : String := "acquisitionModeFilter"

/-- Parameter that lists the channels. -/
def channelsParam : String := "channelNameFilter"

/-- Parameter that names the trigger. -/
def triggerParam : String := "triggerNameFilter"

/-- Parameter for the samples before a trigger. -/
def preParam : String := "preSamples"

/-- Parameter for the samples from a trigger on. -/
def postParam : String := "postSamples"

/-- Parameter for the greatest window length. -/
def windowParam : String := "maximumWindowSize"

/-- Parameter for the delay in nanoseconds. -/
def delayParam : String := "snapshotDelay"

/-- The count under `name`, zero if there is none; blanks around a numeral do not matter. -/
def readCount (params : Params) (name : String) : Except AcqError Nat :=
  match params.get? name with
  | none => .ok 0
  | some raw =>
    match Numeral.read countBound (trimWith isBlank raw.toList) with
    | .ok n => .ok n
    | .error fault => .error (.deserialization name ("'" ++ raw ++ "': " ++ fault.message))

/-- The mode under its parameter, continuous if there is none. -/
def readMode (params : Params) : Except AcqError Mode :=
  match params.get? modeParam with
  | none => .ok .continuous
  | some text => Mode.parse text

/-- Read a filter. Parameters that are missing have their defaults, unknown ones are ignored; a
triggered filter has to ask for at least one sample. -/
def ofParams (params : Params) : Except AcqError Filter := do
  let mode ← readMode params
  let delay ← readCount params delayParam
  let pre ← readCount params preParam
  let post ← readCount params postParam
  let window ← readCount params windowParam
  if mode = .triggered ∧ pre + post = 0 then
    .error (.invalidArgument
      ("triggered acquisition needs " ++ preParam ++ " or " ++ postParam))
  else
    .ok {
      mode
      channels := (params.get? channelsParam).getD ""
      trigger := (params.get? triggerParam).getD ""
      pre
      post
      window
      delay := ⟨delay⟩ }

/-- A parameter with a text, left out when the text is empty. -/
def textEntry (name text : String) : List (String × String) :=
  if text = "" then [] else [(name, text)]

/-- A parameter with a count, left out when the count is zero. -/
def countEntry (name : String) (n : Nat) : List (String × String) :=
  if n = 0 then [] else [(name, Numeral.render n)]

/-- Write a filter, leaving out what has its default; the mode is always written. -/
def toParams (f : Filter) : Params :=
  Table.ofList <|
    [(modeParam, f.mode.name)]
      ++ textEntry channelsParam f.channels
      ++ textEntry triggerParam f.trigger
      ++ countEntry preParam f.pre
      ++ countEntry postParam f.post
      ++ countEntry windowParam f.window
      ++ countEntry delayParam f.delay.nanoseconds

/-- The entries of a comma-separated list, without the blanks around them; entries that are empty
then are left out. -/
def splitChannels (s : List Char) : List (List Char) :=
  ((s.splitOn ',').map (trimWith isBlank)).filter fun name => !name.isEmpty

/-- The channels that the filter lists, in order and with repetitions. -/
def channelNames (f : Filter) : List String := (splitChannels f.channels.toList).map String.ofList

/-- The same filter for a single channel. -/
def forChannel (f : Filter) (channel : String) : Filter := { f with channels := channel }

/-- The key of the poller that serves a channel under this filter. -/
def key (f : Filter) (channel : String) : PollerKey :=
  match f.mode with
  | .continuous => .continuous channel
  | .triggered => .triggered channel f.trigger f.pre f.post
  | .multiplexed => .multiplexed channel f.trigger f.window
  | .snapshot => .snapshot channel f.trigger f.delay

/-- Whether a notification about a single channel belongs to this subscriber: the channel is listed
and both sides resolve it to one key. -/
def accepts (f notification : Filter) : Bool :=
  match notification.channelNames with
  | [channel] => f.channelNames.contains channel && f.key channel == notification.key channel
  | _ => false

end Filter

end Daq
