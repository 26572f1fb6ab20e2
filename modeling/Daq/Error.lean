set_option autoImplicit false

/-!
# Acquisition errors

What can go wrong while a request is served, with the contexts added on the way. An error that
concerns a single subscription or signal is recoverable: the service reports it and goes on.

## Main definitions

* `Daq.AcqError` — the causes.
* `Daq.AcqError.message` — the wording.
* `Daq.AcqError.isRecoverable` — whether only one subscription is concerned.
-/

namespace Daq

/-- What went wrong. -/
inductive AcqError where
  /-- A value outside the accepted vocabulary. -/
  | invalidArgument (text : String)
  /-- A parameter that does not convert to its field. -/
  | deserialization (key text : String)
  /-- No sink for the requested signal. -/
  | unknownSignal (name : String)
  /-- The execution of a graph could not be started or joined. -/
  | scheduler (text : String)
  /-- A configuration could not be read, written or accepted. -/
  | config (text : String)
  /-- Input or output failed. -/
  | io (text : String)
  /-- A value has no written form. -/
  | serialization (text : String)
  /-- An error with the circumstances it arose in. -/
  | withContext (context : String) (source : AcqError)
  deriving DecidableEq, Inhabited

namespace AcqError

/-- The wording of an error; a context stands before the error it surrounds. -/
def message : AcqError → String
  | .invalidArgument text => "Invalid argument: " ++ text
  | .deserialization key text => "Failed to deserialize '" ++ key ++ "': " ++ text
  | .unknownSignal name => "Unknown signal: " ++ name
  | .scheduler text => "Scheduler error: " ++ text
  | .config text => "Configuration error: " ++ text
  | .io text => "IO error: " ++ text
  | .serialization text => "Serialization error: " ++ text
  | .withContext context source => context ++ ": " ++ source.message

/-- Whether the error concerns a single subscription or signal only. -/
def isRecoverable : AcqError → Bool
  | .invalidArgument _ => true
  | .deserialization _ _ => true
  | .unknownSignal _ => true
  | .withContext _ source => source.isRecoverable
  | _ => false

/-- The error that a context surrounds directly. -/
def source? : AcqError → Option AcqError
  | .withContext _ source => some source
  | _ => none

/-- Surround an error by contexts, the last one outermost. -/
def inContexts (e : AcqError) (contexts : List String) : AcqError :=
  contexts.foldl (fun e c => .withContext c e) e

end AcqError

end Daq
