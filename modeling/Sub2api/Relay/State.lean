import Mathlib.Data.Int.Init
import Mathlib.Logic.Function.Basic
import Sub2api.Relay.Usage
import Sub2api.Transducer.Observed

/-!
# The relay's state

What the relay of one upstream websocket remembers between frames: the usage of the running turn,
the start of a turn that no response was seen for yet, the timing of each response, and a bare
error whose settlement waits for the response.failed that may follow.

Times are nanoseconds and never the zero time, a timing pointer is the response id it is stored
under.
-/

namespace Sub2api.Relay

open Sub2api.Go Sub2api.Go.Gjson Transducer

abbrev Time := ℤ

/-- `Duration.Milliseconds`. -/
def milliseconds (duration : ℤ) : ℤ := duration.tdiv 1000000

structure RelayTurnTiming where
  startAt : Time
  firstTokenMs : Option ℤ := none
  firstResponseModel : String := ""
  terminalResponseModel : String := ""
  responseModelConflict : Bool := false
  terminalResponseServiceTier : String := ""

structure ObservedUpstreamEvent where
  terminal : Bool := false
  eventType : String := ""
  responseID : String := ""
  usage : Usage := 0
  startedAt : Option Time := none
  responseModel : String := ""
  responseConflict : Bool := false
  responseServiceTier : String := ""
  duration : ℤ := 0
  firstToken : Option ℤ := none

structure RelayTurnResult where
  requestModel : String
  responseModel : String
  responseModelConflict : Bool
  responseServiceTier : String
  usage : Usage
  requestID : String
  terminalEventType : String
  startedAt : Option Time
  duration : ℤ
  firstTokenMs : Option ℤ

structure RelayState where
  usage : Usage := 0
  turnUsage : Usage := 0
  requestModel : String := ""
  pendingTurnStart : Option Time := none
  lastResponseID : String := ""
  lastResponseModel : String := ""
  lastResponseServiceTier : String := ""
  responseConflict : Bool := false
  terminalEventType : String := ""
  firstTokenMs : Option ℤ := none
  turnTimingByID : String → Option RelayTurnTiming := fun _ => none
  /-- The id of the timing that `activeTurn` points to. -/
  activeTurn : Option String := none
  pendingBareError : Option ObservedUpstreamEvent := none

/-- What a relay was started with, and `strings.EqualFold`. -/
structure RelayEnv where
  startAt : Time
  equalFold : String → String → Bool

/-! ### Models and tiers -/

/-- The first of the paths that is a string with something in it. -/
def firstRelayString (message : Payload) (paths : List String) : String :=
  match paths.find? fun path =>
      (message.get path).type = .string ∧ trimSpace (message.get path).str ≠ "" with
  | some path => trimSpace (message.get path).str
  | none => ""

def firstRelayResponseModel (message : Payload) : String :=
  firstRelayString message ["response.model", "model"]

def firstRelayResponseServiceTier (message : Payload) : String :=
  firstRelayString message ["response.service_tier", "service_tier"]

def relayTurnResponseModel (turn : RelayTurnTiming) : String :=
  if turn.terminalResponseModel ≠ "" then turn.terminalResponseModel else turn.firstResponseModel

def observeRelayTurnResponseModel (env : RelayEnv) (model : String) (terminal : Bool)
    (turn : RelayTurnTiming) : RelayTurnTiming :=
  let model := trimSpace model
  if model = "" then turn
  else
    let current := relayTurnResponseModel turn
    let turn :=
      if current ≠ "" ∧ !env.equalFold current model then { turn with responseModelConflict := true }
      else turn
    if terminal then { turn with terminalResponseModel := model }
    else if turn.firstResponseModel = "" then { turn with firstResponseModel := model }
    else turn

def observeRelayTurnResponseServiceTier (tier : String) (turn : RelayTurnTiming) :
    RelayTurnTiming :=
  let tier := trimSpace tier
  if tier ≠ "" then { turn with terminalResponseServiceTier := tier } else turn

/-- The milliseconds since `startAt`, once there are any. -/
def RelayTurnTiming.observeFirstToken (now : Time) (turn : RelayTurnTiming) : RelayTurnTiming :=
  let ms := milliseconds (now - turn.startAt)
  if turn.firstTokenMs = none ∧ 0 ≤ ms then { turn with firstTokenMs := some ms } else turn

namespace RelayState

/-! ### Turn timing -/

def setRequestModel (s : RelayState) (model : String) : RelayState :=
  if model = "" then s else { s with requestModel := model }

def setPendingTurnStartedAt (s : RelayState) (startedAt : Time) : RelayState :=
  { s with pendingTurnStart := some startedAt }

def consumePendingTurnStartedAt (s : RelayState) : RelayState × Option Time :=
  ({ s with pendingTurnStart := none }, s.pendingTurnStart)

def hasUnfinishedTurn (s : RelayState) : Bool :=
  s.pendingTurnStart.isSome || s.activeTurn.isSome

def getOrInitTurnTiming (s : RelayState) (responseID : String) (now : Time) : RelayState :=
  match s.turnTimingByID responseID with
  | some _ => s
  | none =>
      let (s, startAt) := s.consumePendingTurnStartedAt
      { s with
        turnTimingByID := Function.update s.turnTimingByID responseID
          (some { startAt := startAt.getD now })
        activeTurn := some responseID }

def deleteTurnTiming (s : RelayState) (responseID : String) : RelayState × Option RelayTurnTiming :=
  match s.turnTimingByID responseID with
  | none => (s, none)
  | some timing =>
      ({ s with
        turnTimingByID := Function.update s.turnTimingByID responseID none
        activeTurn := if s.activeTurn = some responseID then none else s.activeTurn }, some timing)

def discardActiveTurnTiming (s : RelayState) : RelayState :=
  match s.activeTurn with
  | none => s
  | some active =>
      { s with
        turnTimingByID := Function.update s.turnTimingByID active none
        activeTurn := none }

def activeTurnID (s : RelayState) : String := s.activeTurn.getD ""

/-- A write through a timing pointer. -/
def updateTiming (s : RelayState) (turn : Option String) (change : RelayTurnTiming → RelayTurnTiming) :
    RelayState :=
  match turn with
  | none => s
  | some responseID =>
      { s with
        turnTimingByID := Function.update s.turnTimingByID responseID
          ((s.turnTimingByID responseID).map change) }

/-! ### Settling a turn -/

def finalizeRelayTurnUsage (s : RelayState) : RelayState × Usage :=
  ({ s with usage := s.usage + s.turnUsage, turnUsage := 0 }, s.turnUsage)

def finalizeObservedRelayTerminal (s : RelayState) (observed : ObservedUpstreamEvent) (now : Time) :
    RelayState × ObservedUpstreamEvent :=
  if trimSpace observed.eventType = "" then (s, {})
  else
    let (s, turnUsage) := s.finalizeRelayTurnUsage
    let observed := { observed with usage := turnUsage, terminal := true }
    let responseID := trimSpace observed.responseID
    if responseID ≠ "" then
      let s := { s with lastResponseID := responseID }
      match s.deleteTurnTiming responseID with
      | (s, none) => (s, observed)
      | (s, some turnTiming) =>
          let observed :=
            { observed with
              responseModel := relayTurnResponseModel turnTiming
              responseConflict := turnTiming.responseModelConflict
              responseServiceTier := turnTiming.terminalResponseServiceTier
              startedAt := some turnTiming.startAt
              duration := max (now - turnTiming.startAt) 0
              firstToken := turnTiming.firstTokenMs }
          ({ s with
            lastResponseModel := observed.responseModel
            responseConflict := observed.responseConflict
            lastResponseServiceTier := observed.responseServiceTier }, observed)
    else (s.consumePendingTurnStartedAt.1.discardActiveTurnTiming, observed)

def finalizePendingBareError (s : RelayState) (now : Time) : RelayState × ObservedUpstreamEvent :=
  match s.pendingBareError with
  | none => (s, {})
  | some observed => { s with pendingBareError := none }.finalizeObservedRelayTerminal observed now

/-- What `OnTurnComplete` is called with. -/
def emitTurnComplete (s : RelayState) (observed : ObservedUpstreamEvent) : List RelayTurnResult :=
  if !observed.terminal then []
  else
    let responseID := trimSpace observed.responseID
    if responseID = "" ∧ trimSpace observed.eventType ≠ "error" then []
    else
      [{ requestModel := s.requestModel
         responseModel := observed.responseModel
         responseModelConflict := observed.responseConflict
         responseServiceTier := observed.responseServiceTier
         usage := observed.usage
         requestID := responseID
         terminalEventType := observed.eventType
         startedAt := observed.startedAt
         duration := observed.duration
         firstTokenMs := observed.firstToken }]

/-- A settlement and the callback for it. -/
def complete (settled : RelayState × ObservedUpstreamEvent) : RelayState × List RelayTurnResult :=
  (settled.1, settled.1.emitTurnComplete settled.2)

/-! ### Upstream frames -/

def shouldFinalizePendingBareError (s : RelayState) (payload : Payload) (eventType : String) :
    Bool :=
  match s.pendingBareError with
  | none => false
  | some pending =>
      let eventType := trimSpace eventType
      if eventType = "" ∨ eventType = "error" ∨ eventType = "response.failed" then false
      else if isTerminalEvent eventType ∨ eventType = "response.created" then true
      else
        let responseID := trimSpace (payload.get "response.id").str
        if responseID = "" ∨ pending.responseID = "" then false
        else responseID ≠ pending.responseID

end RelayState

/-- The response an event names. Only a terminal event's own id can be the response's. -/
def Payload.responseID (message : Payload) (eventType : String) : String :=
  let responseID := trimSpace (message.get "response.id").str
  let responseID :=
    if responseID = "" then trimSpace (message.get "response_id").str else responseID
  if responseID = "" ∧ isTerminalEvent eventType then trimSpace (message.get "id").str
  else responseID

namespace RelayState

/-- The first token of the relay, and of the active turn where it is its first. -/
def observeFirstToken (env : RelayEnv) (s : RelayState) (eventType : String) (now : Time) :
    RelayState :=
  if s.firstTokenMs = none ∧ isTokenEvent eventType then
    let ms := milliseconds (now - env.startAt)
    let s := if 0 ≤ ms then { s with firstTokenMs := some ms } else s
    s.updateTiming s.activeTurn (·.observeFirstToken now)
  else s

/-- The timing of the event's turn: of the response it names, else of the active turn. -/
def observeTurnTiming (env : RelayEnv) (s : RelayState) (message : Payload)
    (eventType responseID : String) (now : Time) : RelayState × Option String :=
  let (s, turnTiming) :=
    if responseID ≠ "" then
      let s := s.getOrInitTurnTiming responseID now
      (if isTokenEvent eventType then s.updateTiming (some responseID) (·.observeFirstToken now)
        else s, some responseID)
    else (s, s.activeTurn)
  (s.updateTiming turnTiming (observeRelayTurnResponseModel env (firstRelayResponseModel message)
    (isTerminalEvent eventType)), turnTiming)

/-- What every event counts for: the first token, the usage, the turn's timing and model. -/
def hear (env : RelayEnv) (s : RelayState) (message : Payload) (eventType : String) (now : Time) :
    RelayState × Option String :=
  let s := s.observeFirstToken env eventType now
  let s := { s with turnUsage := (parseUsageAndAccumulate s.turnUsage message eventType).1 }
  s.observeTurnTiming env message eventType (message.responseID eventType) now

def observeUpstreamMessage (env : RelayEnv) (s : RelayState) (message : Payload) (now : Time) :
    RelayState × ObservedUpstreamEvent :=
  let eventType := trimSpace (message.get "type").str
  if eventType = "" then (s, {})
  else
    let observed : ObservedUpstreamEvent :=
      { eventType := eventType
        responseID := message.responseID eventType
        usage := (parseUsageAndAccumulate s.turnUsage message eventType).2 }
    let (s, turnTiming) := s.hear env message eventType now
    if !isTerminalEvent eventType then (s, observed)
    else
      let s := s.updateTiming turnTiming
        (observeRelayTurnResponseServiceTier (firstRelayResponseServiceTier message))
      let s := { s with terminalEventType := eventType }
      if eventType = "error" then
        -- The response.failed that may follow brings the usage to settle the turn with.
        let observed :=
          if observed.responseID = "" then { observed with responseID := s.activeTurnID }
          else observed
        ({ s with pendingBareError := some observed }, observed)
      else { s with pendingBareError := none }.finalizeObservedRelayTerminal observed now

/-- A text frame from upstream. -/
def receiveText (env : RelayEnv) (s : RelayState) (payload : Payload) (now : Time) :
    RelayState × List RelayTurnResult :=
  let eventType := trimSpace (payload.get "type").str
  andThen
    (if s.shouldFinalizePendingBareError payload eventType then
      complete (s.finalizePendingBareError now) else (s, []))
    fun s => complete (s.observeUpstreamMessage env payload now)

/-- A binary frame from upstream: only a terminal event in it counts. -/
def receiveBinary (s : RelayState) (payload : Payload) : RelayState :=
  if isTerminalEvent (trimSpace (payload.get "type").str) then
    s.consumePendingTurnStartedAt.1.discardActiveTurnTiming
  else s

/-- The end of the relay, and what the upstream reader does when it cannot read on. -/
def settleAtEnd (s : RelayState) (now : Time) : RelayState × List RelayTurnResult :=
  complete (s.finalizePendingBareError now)

/-- A response.create of the client on its way upstream. -/
def startTurn (s : RelayState) (payload : Payload) (turnStartedAt : Time) : RelayState :=
  (s.setRequestModel (trimSpace (payload.get "model").str)).setPendingTurnStartedAt turnStartedAt

end RelayState

end Sub2api.Relay
