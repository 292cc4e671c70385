import Mathlib.Data.Int.Basic

/-!
# The circuit of a model pool

One hash with a time to live, and five scripts on it, each atomic and at the time of Redis in
milliseconds. Fields are options of what they hold; a key without fields is gone. How the key is
named and the checks of tokens and failure classes before a script are left out, and so is a script
that fails, which lets the request pass.
-/

namespace Sub2api.ModelPool

inductive FailureClass where
  | server
  | overload
  deriving DecidableEq

/-- The fields of the hash. -/
structure Fields where
  blockedUntil : Option ℤ := none
  probeOwner : Option String := none
  probeUntil : Option ℤ := none
  failureClass : Option FailureClass := none
  failureCount : Option ℤ := none
  windowStart : Option ℤ := none
  deriving DecidableEq

structure CircuitKey where
  fields : Fields := {}
  expireAt : Option ℤ := none
  deriving DecidableEq

def openAIModelPoolCircuitWindow : ℤ := 60000
def openAIModelPoolCircuitCooldown : ℤ := 60000
def openAIModelPoolCircuitProbeLease : ℤ := 30000
def openAIModelPoolCircuitRetention : ℤ := 1800000

namespace CircuitKey

/-- The fields at a time. -/
def content (key : CircuitKey) (now : ℤ) : Fields :=
  if key.expireAt.any fun t => t < now then {} else key.fields

/-- `HSET` or `HDEL`, and `PEXPIRE`. -/
def write (fields : Fields) (now ttl : ℤ) : CircuitKey :=
  if fields = {} then {} else { fields, expireAt := some (now + ttl) }

end CircuitKey

/-- What `CheckAndClaimOpenAIModelPool` gets. -/
structure Claim where
  allowed : Bool
  probe : Bool

/-- `openAIModelPoolCheckAndClaimScript`. -/
def checkAndClaim (owner : String) (now : ℤ) (key : CircuitKey) : CircuitKey × Claim :=
  let h := key.content now
  let blockedUntil := h.blockedUntil.getD 0
  if blockedUntil = 0 then (key, ⟨true, false⟩)
  else if now < blockedUntil then (key, ⟨false, false⟩)
  else if h.probeOwner.isSome ∧ now < h.probeUntil.getD 0 then (key, ⟨false, false⟩)
  else
    (.write
        { h with
          probeOwner := some owner
          probeUntil := some (now + openAIModelPoolCircuitProbeLease) }
        now (openAIModelPoolCircuitProbeLease + openAIModelPoolCircuitRetention),
      ⟨true, true⟩)

/-- The end of the window of failures, or another class of failure. -/
def windowOver (failureClass : FailureClass) (now : ℤ) (h : Fields) : Prop :=
  let windowStart := h.windowStart.getD 0
  windowStart = 0 ∨ now < windowStart ∨ now - windowStart > openAIModelPoolCircuitWindow ∨
    h.failureClass ≠ some failureClass

instance (failureClass : FailureClass) (now : ℤ) (h : Fields) :
    Decidable (windowOver failureClass now h) := by
  unfold windowOver
  infer_instance

/-- `openAIModelPoolRecordExhaustionScript`; it returns whether the circuit was tripped. -/
def recordExhaustion (failureClass : FailureClass) (ownerToken : String) (now : ℤ)
    (key : CircuitKey) : CircuitKey × Bool :=
  let h := key.content now
  let blockedUntil := h.blockedUntil.getD 0
  let probeUntil := h.probeUntil.getD 0
  match h.probeOwner with
  | some probeOwner =>
      if ownerToken = "" ∨ ownerToken ≠ probeOwner ∨ now ≥ probeUntil then (key, false)
      else
        (.write
            { h with
              failureClass := some failureClass
              failureCount := some 2
              windowStart := some now
              blockedUntil := some (now + openAIModelPoolCircuitCooldown)
              probeOwner := none
              probeUntil := none }
            now (openAIModelPoolCircuitCooldown + openAIModelPoolCircuitRetention),
          true)
  | none =>
      if blockedUntil > 0 then (key, false)
      else
        let windowStart :=
          if windowOver failureClass now h then now else h.windowStart.getD 0
        let failureCount :=
          (if windowOver failureClass now h then 0 else h.failureCount.getD 0) + 1
        if failureCount ≥ 2 then
          (.write
              { h with
                failureClass := some failureClass
                failureCount := some failureCount
                windowStart := some windowStart
                blockedUntil := some (now + openAIModelPoolCircuitCooldown) }
              now (openAIModelPoolCircuitCooldown + openAIModelPoolCircuitRetention),
            true)
        else
          (.write
              { h with
                failureClass := some failureClass
                failureCount := some failureCount
                windowStart := some windowStart }
              now openAIModelPoolCircuitWindow,
            false)

/-- `openAIModelPoolClearSuccessScript`; `DEL` returns whether there was a key. -/
def clearSuccess (ownerToken : String) (now : ℤ) (key : CircuitKey) : CircuitKey × Bool :=
  let h := key.content now
  if h.probeOwner.isSome ∧ h.probeOwner ≠ some ownerToken then (key, false)
  else ({}, h ≠ {})

/-- `openAIModelPoolReleaseProbeScript`. -/
def releaseProbe (ownerToken : String) (now : ℤ) (key : CircuitKey) : CircuitKey × Bool :=
  let h := key.content now
  if h.probeOwner ≠ some ownerToken then (key, false)
  else
    (.write { h with probeOwner := none, probeUntil := none } now
        openAIModelPoolCircuitRetention,
      true)

/-- `openAIModelPoolRenewProbeScript`. -/
def renewProbe (ownerToken : String) (now : ℤ) (key : CircuitKey) : CircuitKey × Bool :=
  let h := key.content now
  if h.probeOwner ≠ some ownerToken then (key, false)
  else if now ≥ h.probeUntil.getD 0 then (key, false)
  else
    (.write { h with probeUntil := some (now + openAIModelPoolCircuitProbeLease) } now
        (openAIModelPoolCircuitProbeLease + openAIModelPoolCircuitRetention),
      true)

/-! ### Runs -/

inductive Op where
  | acquire
  | failure (failureClass : FailureClass)
  | success
  | release
  | renew

/-- A script that a client runs with its token. -/
structure Call where
  op : Op
  token : String
  now : ℤ

def Call.apply (call : Call) (key : CircuitKey) : CircuitKey :=
  match call.op with
  | .acquire => (checkAndClaim call.token call.now key).1
  | .failure failureClass => (recordExhaustion failureClass call.token call.now key).1
  | .success => (clearSuccess call.token call.now key).1
  | .release => (releaseProbe call.token call.now key).1
  | .renew => (renewProbe call.token call.now key).1

/-- History: the lease that each client was last given and has not ended by its own outcome or
release, and until when the last trip blocks, if no success cleared the circuit since. -/
structure History where
  leases : String → Option ℤ := fun _ => none
  blockedUntil : ℤ := 0

structure State where
  key : CircuitKey := {}
  history : History := {}

def History.lease (history : History) (token : String) (until_ : Option ℤ) : History :=
  { history with leases := Function.update history.leases token until_ }

def State.record (s : State) (call : Call) : History :=
  match call.op with
  | .acquire =>
      if (checkAndClaim call.token call.now s.key).2.probe then
        s.history.lease call.token (some (call.now + openAIModelPoolCircuitProbeLease))
      else s.history
  | .failure failureClass =>
      let history := s.history.lease call.token none
      if (recordExhaustion failureClass call.token call.now s.key).2 then
        { history with blockedUntil := call.now + openAIModelPoolCircuitCooldown }
      else history
  | .success =>
      let history := s.history.lease call.token none
      if (clearSuccess call.token call.now s.key).2 then { history with blockedUntil := 0 }
      else history
  | .release => s.history.lease call.token none
  | .renew =>
      if (renewProbe call.token call.now s.key).2 then
        s.history.lease call.token (some (call.now + openAIModelPoolCircuitProbeLease))
      else s.history

def State.step (s : State) (call : Call) : State where
  key := call.apply s.key
  history := s.record call

def run (calls : List Call) : State := calls.foldl State.step {}

end Sub2api.ModelPool
