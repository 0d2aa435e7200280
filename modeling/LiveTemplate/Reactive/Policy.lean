/-!
# Notify policies

What a dependency does when a subscriber fails to recompute.
-/

namespace LiveTemplate

/-- What a notification does about a failing subscriber. -/
inductive NotifyPolicy
  /-- Stop at the first failure and hand it to the writer. -/
  | failFast
  /-- Recompute every subscriber, then report all failures together. -/
  | isolate
deriving DecidableEq, Repr, Inhabited

namespace NotifyPolicy

/-- The word for a policy in options. -/
def label : NotifyPolicy → String
  | failFast => "fail-fast"
  | isolate => "isolate"

/-- The policy with the given word. -/
def ofLabel? (word : String) : Option NotifyPolicy :=
  if word = failFast.label then some failFast
  else if word = isolate.label then some isolate
  else none

/-- The name of a policy in inspection output. -/
def inspect : NotifyPolicy → String
  | failFast => "FailFast"
  | isolate => "Isolate"

end NotifyPolicy

/-- The configuration an object graph is observed under. -/
structure ReactiveConfig where
  notifyPolicy : NotifyPolicy := .failFast
deriving DecidableEq, Repr, Inhabited

end LiveTemplate
