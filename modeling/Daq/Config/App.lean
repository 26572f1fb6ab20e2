import Daq.Config.Generator
import Daq.Config.Worker

set_option autoImplicit false

/-!
# Configuration of the whole program

## Main definitions

* `Daq.AppConfig` — worker, generators, run time and log file.
* `Daq.AppConfig.decode`, `Daq.AppConfig.encode` — reading and writing.
* `Daq.AppConfig.same` — equality by value.
-/

namespace Daq

open Document

/-- Configuration of the whole program. -/
structure AppConfig where
  /-- The tuning of the worker. -/
  worker : WorkerConfig := {}
  /-- The generated signals. -/
  generators : List GeneratorConfig :=
    [{ signal := "voltage" }, { signal := "current", unit := "A", frequency := .ofUInt64 2 }]
  /-- The run time in seconds. -/
  runTime : Nat := 5
  /-- The log file, if there is one. -/
  logFile : Option String := none
  deriving DecidableEq

namespace AppConfig

/-- The run time. -/
def duration (c : AppConfig) : Duration := .ofSeconds c.runTime

/-- The names of the fields, in order. -/
def fieldNames : List String := ["worker", "generators", "run_time_secs", "log_file"]

/-- Read a configuration; a missing field has its default. -/
def decode (c : Convention) (d : Document) : Option AppConfig := do
  match ← d.fields c fieldNames with
  | [worker, generators, runTime, logFile] =>
    let standard : AppConfig := {}
    return {
      worker := ← orDefault standard.worker (WorkerConfig.decode c) worker
      generators := ← orDefault standard.generators (toListOf (GeneratorConfig.decode c)) generators
      runTime := ← orDefault standard.runTime toCount runTime
      logFile := ← orDefault standard.logFile (toOptional toText) logFile }
  | _ => none

/-- Write a configuration with all fields. -/
def encode (c : AppConfig) : Document :=
  .record <| fieldNames.zip [
    c.worker.encode,
    .list (c.generators.map GeneratorConfig.encode),
    ofCount c.runTime,
    ofOptional .text c.logFile]

/-- Whether two lists of generators are equal by value. -/
def sameGenerators : List GeneratorConfig → List GeneratorConfig → Bool
  | [], [] => true
  | a :: as, b :: bs => a.same b && sameGenerators as bs
  | _, _ => false

/-- Equality by value: numbers are compared as numbers. -/
def same (a b : AppConfig) : Bool :=
  a.worker == b.worker && sameGenerators a.generators b.generators && a.runTime == b.runTime &&
    a.logFile == b.logFile

end AppConfig

end Daq
