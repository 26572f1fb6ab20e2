import Daq.Document
import Daq.Duration
import Daq.Error
import Daq.Hub

set_option autoImplicit false

/-!
# Configuration of a worker

## Main definitions

* `Daq.WorkerConfig` — service path, periods and capacities, with their defaults.
* `Daq.WorkerConfig.validate` — what a worker cannot run with.
* `Daq.WorkerConfig.decode`, `Daq.WorkerConfig.encode` — reading from and writing to documents.
* `Daq.nextDeadline` — when ticks are due.
-/

namespace Daq

/-- Tuning of one worker. -/
structure WorkerConfig where
  /-- The path that topics have to address. -/
  servicePath : String := "/acquisition"
  /-- The time between ticks in milliseconds. -/
  tickPeriod : Nat := 100
  /-- The pause between flush passes in milliseconds. -/
  drainPause : Nat := 1
  /-- The pause after a round without work in milliseconds. -/
  idlePause : Nat := 5
  /-- The queue capacity of pollers for blocks. -/
  streamingCapacity : Nat := 1024
  /-- The queue capacity of pollers for captures. -/
  datasetCapacity : Nat := 64
  /-- The queue capacity of subscribers. -/
  subscriberCapacity : Nat := 1024
  /-- The capacity of the queue of events. -/
  eventCapacity : Nat := 256
  deriving DecidableEq, Inhabited

namespace WorkerConfig

/-- The time between ticks, at least a millisecond. -/
def tickTime (c : WorkerConfig) : Duration := .ofMilliseconds (max c.tickPeriod 1)

/-- The pause between flush passes. -/
def drainTime (c : WorkerConfig) : Duration := .ofMilliseconds c.drainPause

/-- The pause after a round without work. -/
def idleTime (c : WorkerConfig) : Duration := .ofMilliseconds c.idlePause

/-- The capacities of pollers. -/
def capacities (c : WorkerConfig) : Capacities := ⟨c.streamingCapacity, c.datasetCapacity⟩

/-- The first value that a worker cannot run with. -/
def validate (c : WorkerConfig) : Except AcqError Unit :=
  if c.servicePath.toList.head? ≠ some '/' then
    .error (.config ("service_path '" ++ c.servicePath ++ "' must start with '/'"))
  else if c.tickPeriod = 0 then .error (.config "tick_period_ms must be positive")
  else if c.eventCapacity = 0 then .error (.config "event_capacity must be positive")
  else .ok ()

/-- The names of the fields, in order. -/
def fieldNames : List String :=
  ["service_path", "tick_period_ms", "drain_poll_interval_ms", "scheduler_idle_sleep_ms",
    "streaming_buffer_capacity", "dataset_buffer_capacity", "subscriber_capacity",
    "event_capacity"]

open Document in
/-- Read a configuration; a missing field has its default. -/
def decode (c : Convention) (d : Document) : Option WorkerConfig := do
  match ← d.fields c fieldNames with
  | [path, tick, drain, idle, streaming, dataset, subscriber, event] =>
    let standard : WorkerConfig := {}
    return {
      servicePath := ← orDefault standard.servicePath toText path
      tickPeriod := ← orDefault standard.tickPeriod toCount tick
      drainPause := ← orDefault standard.drainPause toCount drain
      idlePause := ← orDefault standard.idlePause toCount idle
      streamingCapacity := ← orDefault standard.streamingCapacity toCount streaming
      datasetCapacity := ← orDefault standard.datasetCapacity toCount dataset
      subscriberCapacity := ← orDefault standard.subscriberCapacity toCount subscriber
      eventCapacity := ← orDefault standard.eventCapacity toCount event }
  | _ => none

open Document in
/-- Write a configuration with all fields. -/
def encode (c : WorkerConfig) : Document :=
  .record <| fieldNames.zip [
    .text c.servicePath,
    ofCount c.tickPeriod,
    ofCount c.drainPause,
    ofCount c.idlePause,
    ofCount c.streamingCapacity,
    ofCount c.datasetCapacity,
    ofCount c.subscriberCapacity,
    ofCount c.eventCapacity]

end WorkerConfig

/-- The deadline that follows another one: deadlines keep their distance, however late a tick is. -/
def nextDeadline (previous period : Duration) : Duration :=
  ⟨previous.nanoseconds + period.nanoseconds⟩

end Daq
