import NetGraphz.Base.Heap
import NetGraphz.Base.History
import NetGraphz.Base.Intervals

/-! The event handler of the notification service: Icinga notifications are
collected by topic, then paced by a rate limiter, then processed. Interval
timers are ticked by the environment, at any time and in any order. -/
namespace NetGraphz.EventHandler

/-- `user` of a notification. A variable the script did not find is undefined. -/
structure User where
  name : Option String
  email : Option String
  deriving DecidableEq

/-- A notification body as the Icinga scripts send it. `hostName` is the field
`host.name` of a service notification; `rest` are the fields never read here. -/
structure Body (π : Type u) where
  name : Option String
  hostName : Option String
  stateId : Option String
  lastStateId : Option String
  user : User
  rest : π
  deriving DecidableEq

/-- `NOTIFICATION_HOST` and `NOTIFICATION_SERVICE`. -/
inductive NotificationType where
  | host
  | service
  deriving DecidableEq

/-- `agg_body`. -/
structure AggBody where
  aggType : NotificationType
  aggStateId : Option String
  aggLastStateId : Option String
  aggUser : Option String
  aggUserEmail : Option String
  hostNames : List (Option String)
  serviceNames : Option (List (Option String))
  deriving DecidableEq

/-- What is handed on: a body with `isAggregated`, or one without. -/
inductive Message (π : Type u) where
  | simple (body : Body π)
  | aggregated (body : AggBody)
  deriving DecidableEq

/-- An entry of `_queue`. -/
structure Notification (π : Type u) where
  body : Message π
  type : NotificationType
  deriving DecidableEq

/-- `AggEventObj`. -/
structure AggEventObj (π : Type u) where
  events : List (Body π)
  aggStateId : Option String
  aggLastStateId : Option String
  aggUser : Option String
  aggUserEmail : Option String
  type : NotificationType
  timer : Nat

/-- The functions given to `setInterval`; the last closes over a topic and its
object. -/
inductive Callback where
  | ratelimitTimer
  | ratelimitThrottleTimer
  | aggEvent (aggTopic : String) (obj : Ref)
  deriving DecidableEq

/-- `api.rateLimit` and `api.aggregation`, less their intervals. -/
structure Config where
  enabled : Bool
  rate : Nat
  overrate : Option String
  aggregation : Bool

/-- The variables of the module, its objects and timers. `processed` logs what
was handed to the process functions, `offered` what was put to the limiter. -/
structure State (π : Type u) where
  ratelimitTimer : Option Nat := none
  ratelimitThrottleTimer : Option Nat := none
  ratelimitReqCurr : Int := 0
  aggEventTopics : Finmap (fun _ : String => Ref) := ∅
  queue : List (Notification π) := []
  objects : Heap (AggEventObj π) := {}
  intervals : Intervals Callback := {}
  processed : List (Notification π) := []
  offered : List (Notification π) := []

variable {π : Type u}

/-- `clearInterval` of a variable that may be null. -/
def clearInterval (state : State π) (timer : Option Nat) : State π :=
  { state with
    intervals := match timer with
      | none => state.intervals
      | some handle => state.intervals.clear handle }

/-- `_ratelimit_start_timer`. -/
def ratelimitStartTimer (state : State π) : State π :=
  let (intervals, handle) := state.intervals.set .ratelimitTimer
  { state with intervals := intervals, ratelimitTimer := some handle }

/-- `_ratelimit_stop_timer`. -/
def ratelimitStopTimer (state : State π) : State π :=
  { clearInterval state state.ratelimitTimer with ratelimitTimer := none }

/-- `_ratelimit_start_throttle_timer`. -/
def ratelimitStartThrottleTimer (state : State π) : State π :=
  let (intervals, handle) := state.intervals.set .ratelimitThrottleTimer
  { state with intervals := intervals, ratelimitThrottleTimer := some handle }

/-- `_ratelimit_stop_throttle_timer`. -/
def ratelimitStopThrottleTimer (state : State π) : State π :=
  { clearInterval state state.ratelimitThrottleTimer with ratelimitThrottleTimer := none }

/-- `_process_host_notification` or `_process_service_notification`: the
database is queried and answers later. -/
def process (state : State π) (notification : Notification π) : State π :=
  { state with processed := state.processed ++ [notification] }

/-- `_notification_rate_limited`. -/
def notificationRateLimited (config : Config) (state : State π)
    (notification : Notification π) : State π × Bool :=
  if !config.enabled then (state, false)
  else
    let state := { state with ratelimitReqCurr := state.ratelimitReqCurr + 1 }
    if (config.rate : Int) ≤ state.ratelimitReqCurr then
      if config.overrate = some "drop" then (state, true)
      else
        let state := { state with queue := state.queue ++ [notification] }
        let state := if state.ratelimitTimer ≠ none then ratelimitStopTimer state else state
        let state :=
          if state.ratelimitThrottleTimer = none then ratelimitStartThrottleTimer state else state
        (state, true)
    else (state, false)

/-- The way every notification takes: process it unless it is limited. -/
def limitOrProcess (config : Config) (state : State π) (notification : Notification π) :
    State π :=
  let state := { state with offered := state.offered ++ [notification] }
  let (state, limited) := notificationRateLimited config state notification
  if limited then state else process state notification

/-- The loop of the throttle timer's callback, with what is left of the rate;
it also returns `nProc`. -/
def processQueue : Nat → State π → State π × Nat
  | 0, state => (state, 0)
  | budget + 1, state =>
    match state.queue with
    | [] => (state, 0)
    | notification :: rest =>
      let state := process { state with queue := rest } notification
      let (state, nProc) :=
        processQueue budget { state with ratelimitReqCurr := state.ratelimitReqCurr - 1 }
      (state, nProc + 1)

/-- `_ratelimit_throttle_timer_callback`. -/
def ratelimitThrottleTimerCallback (config : Config) (state : State π) : State π :=
  let (state, nProc) := processQueue config.rate state
  if nProc < config.rate then
    ratelimitStartTimer (ratelimitStopThrottleTimer { state with ratelimitReqCurr := 0 })
  else state

/-- `_ratelimit_timer_callback`. -/
def ratelimitTimerCallback (state : State π) : State π := { state with ratelimitReqCurr := 0 }

/-- `agg_body` of two events or more. -/
def aggBody (aggObj : AggEventObj π) : AggBody :=
  match aggObj.type with
  | .host =>
    { aggType := .host
      aggStateId := aggObj.aggStateId
      aggLastStateId := aggObj.aggLastStateId
      aggUser := aggObj.aggUser
      aggUserEmail := aggObj.aggUserEmail
      hostNames := aggObj.events.map Body.name
      serviceNames := none }
  | .service =>
    -- the source says `NOTIFICATION_HOST` here too
    { aggType := .host
      aggStateId := aggObj.aggStateId
      aggLastStateId := aggObj.aggLastStateId
      aggUser := aggObj.aggUser
      aggUserEmail := aggObj.aggUserEmail
      hostNames := aggObj.events.map Body.hostName
      serviceNames := some (aggObj.events.map Body.name) }

/-- `_agg_event_process`. -/
def aggEventProcess (config : Config) (state : State π) (aggTopic : String) (obj : Ref) :
    State π :=
  match state.objects.read obj with
  | none => state
  | some aggObj =>
    match aggObj.events with
    | [] =>
      { clearInterval state (some aggObj.timer) with
        aggEventTopics := state.aggEventTopics.erase aggTopic }
    | [event] =>
      let state := limitOrProcess config state ⟨.simple event, aggObj.type⟩
      { state with objects := state.objects.write obj { aggObj with events := [] } }
    | _ :: _ :: _ =>
      let state := limitOrProcess config state ⟨.aggregated (aggBody aggObj), aggObj.type⟩
      { state with objects := state.objects.write obj { aggObj with events := [] } }

/-- A value put into a string. -/
def text (value : Option String) : String := value.getD "undefined"

/-- The string `_get_aggregate_topic` builds. -/
def topicOf (type : NotificationType) (stateId lastStateId userName : Option String) : String :=
  let strType := match type with
    | .host => "host"
    | .service => "service"
  strType ++ "/" ++ text stateId ++ "/" ++ text lastStateId ++ "/" ++ text userName

/-- `_get_aggregate_topic`. -/
def getAggregateTopic (body : Body π) (type : NotificationType) : String :=
  topicOf type body.stateId body.lastStateId body.user.name

/-- `_aggregate_event`. -/
def aggregateEvent (config : Config) (state : State π) (body : Body π)
    (type : NotificationType) : State π × Bool :=
  if !config.aggregation then (state, false)
  else
    let aggTopic := getAggregateTopic body type
    match state.aggEventTopics.lookup aggTopic with
    | some obj =>
      let push (aggObj : AggEventObj π) := { aggObj with events := aggObj.events ++ [body] }
      ({ state with objects := state.objects.modify obj push }, true)
    | none =>
      let (intervals, timer) := state.intervals.set (.aggEvent aggTopic state.objects.next)
      let (objects, obj) := state.objects.alloc
        { events := [body]
          aggStateId := body.stateId
          aggLastStateId := body.lastStateId
          aggUser := body.user.name
          aggUserEmail := body.user.email
          type := type
          timer := timer }
      ({ state with
          intervals := intervals
          objects := objects
          aggEventTopics := state.aggEventTopics.insert aggTopic obj }, true)

/-- `handle_host_notification` and `handle_service_notification` at a type. -/
def handleNotification (config : Config) (state : State π) (body : Body π)
    (type : NotificationType) : State π :=
  let (state, aggregated) := aggregateEvent config state body type
  if aggregated then state else limitOrProcess config state ⟨.simple body, type⟩

/-- `handle_host_notification`. -/
def handleHostNotification (config : Config) (state : State π) (body : Body π) : State π :=
  handleNotification config state body .host

/-- `handle_service_notification`. -/
def handleServiceNotification (config : Config) (state : State π) (body : Body π) : State π :=
  handleNotification config state body .service

/-- `init`, on the module as it is loaded. -/
def init (config : Config) : State π :=
  if config.enabled then ratelimitStartTimer {} else {}

/-- What happens to the module after `init`. A cleared timer's tick never
comes. -/
inductive Event (π : Type u) where
  | notifyHost (body : Body π)
  | notifyService (body : Body π)
  | tick (handle : Nat)
  deriving DecidableEq

/-- The callback of an interval timer. -/
def fire (config : Config) (state : State π) : Callback → State π
  | .ratelimitTimer => ratelimitTimerCallback state
  | .ratelimitThrottleTimer => ratelimitThrottleTimerCallback config state
  | .aggEvent aggTopic obj => aggEventProcess config state aggTopic obj

/-- One event. -/
def step (config : Config) (state : State π) : Event π → State π
  | .notifyHost body => handleHostNotification config state body
  | .notifyService body => handleServiceNotification config state body
  | .tick handle =>
    match state.intervals.callback handle with
    | none => state
    | some callback => fire config state callback

/-- The module after a history of events. -/
def handlerAfter (config : Config) (history : List (Event π)) : State π :=
  after (step config) (init config) history

end NetGraphz.EventHandler
