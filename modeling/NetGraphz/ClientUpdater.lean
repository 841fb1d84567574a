import NetGraphz.Base.History
import NetGraphz.NodeParts

/-! The updater of the web client: a chain of timers and fetches that goes
through the nodes part by part, again and again. -/
namespace NetGraphz.ClientUpdater
open GraphStorage NodeParts

/-- What a timeout calls. -/
inductive Callback where
  | updateCallback
  | updatePartStart
  deriving DecidableEq

/-- A timeout that is armed. -/
structure Timeout where
  handle : Nat
  callback : Callback
  wait : Int

/-- `settings.updater`. -/
structure Settings where
  updateInterval : Int
  partInterval : Int
  partSize : PartSize

/-- The variables of the updater, the timeouts that are armed, and the fetches
in flight, each with the id it asked from. `issued` counts the fetches, and
`passed` has the batches that `updateNodes` was called with. -/
structure Updater where
  globalTimer : Option Nat := none
  partTimer : Option Nat := none
  updaterStarted : Bool := false
  rotationStartTime : Int := 0
  rotationEndTime : Int := 0
  lastId : Int := 0
  timeouts : List Timeout := []
  nextHandle : Nat := 0
  fetches : List Int := []
  issued : Nat := 0
  passed : List (List Host) := []

/-- `setTimeout`; the handle is the old `nextHandle`. -/
def Updater.setTimeout (updater : Updater) (callback : Callback) (wait : Int) : Updater :=
  { updater with
    timeouts := updater.timeouts ++ [⟨updater.nextHandle, callback, wait⟩]
    nextHandle := updater.nextHandle + 1 }

def Updater.clearTimeout (updater : Updater) (handle : Option Nat) : Updater :=
  { updater with timeouts := updater.timeouts.filter fun timeout => some timeout.handle ≠ handle }

/-- `_global_timer = setTimeout(updateCallback, wait)`. -/
def Updater.armGlobal (updater : Updater) (wait : Int) : Updater :=
  { updater.setTimeout .updateCallback wait with globalTimer := some updater.nextHandle }

/-- `_part_timer = setTimeout(updatePartStart, wait)`. -/
def Updater.armPart (updater : Updater) (wait : Int) : Updater :=
  { updater.setTimeout .updatePartStart wait with partTimer := some updater.nextHandle }

/-- `updatePartStart`, up to the request. -/
def updatePartStart (updater : Updater) : Updater :=
  { updater with fetches := updater.fetches ++ [updater.lastId], issued := updater.issued + 1 }

/-- The callback of `updatePartStart` with an error. -/
def onError (updater : Updater) : Updater :=
  (updater.clearTimeout updater.partTimer).armPart 35000

/-- The callback takes in a part that is not empty, up to the end of
`updateNodes`. -/
def passPart (updater : Updater) (nodes : List Host) : Updater :=
  match nodes.getLast? with
  | none => updater
  | some last =>
    { updater with
      lastId := max updater.lastId (shownId last)
      passed := updater.passed ++ [nodes] }

/-- The end of an update cycle. -/
def finishRotation (settings : Settings) (updater : Updater) (now : Int) : Updater :=
  let delta := now - updater.rotationStartTime
  let waitTime := if delta > settings.updateInterval then 0 else settings.updateInterval - delta
  { updater with rotationEndTime := now, lastId := 0 }.armGlobal waitTime

/-- The callback of `updatePartStart` with a part. -/
def onPart (settings : Settings) (updater : Updater) (now : Int) (nodes : List Host) : Updater :=
  let updater := passPart updater nodes
  if nodes.length < settings.partSize.size then finishRotation settings updater now
  else updater.armPart settings.partInterval

/-- How a fetch ends. `part` is an array of nodes, and tells whether
`updateNodes` throws on it; `object` is other JSON, which has no length;
`unreadable` is an empty or broken body; after a failure of the network the
callback is called for the empty body and again for the failure. -/
inductive Response where
  | part (nodes : List Host) (throws : Bool)
  | object
  | unreadable
  | networkFailure

/-- `_fetch_json` calls back. What the callback throws is taken for a parser's
error, and it is called again with that. -/
def onResponse (settings : Settings) (updater : Updater) (now : Int) : Response → Updater
  | .part nodes throws =>
    if throws && !nodes.isEmpty then onError (passPart updater nodes)
    else onPart settings updater now nodes
  | .object => updater.armPart settings.partInterval
  | .unreadable => onError updater
  | .networkFailure => onError (onError updater)

def updateCallback (settings : Settings) (updater : Updater) (now : Int) : Updater :=
  { updater with rotationStartTime := now }.armPart settings.partInterval

/-- `start`. -/
def start (settings : Settings) (updater : Updater) : Updater :=
  if updater.updaterStarted then updater
  else
    { updater with lastId := 0, updaterStarted := true }.armGlobal settings.updateInterval

/-- `stop`. -/
def stop (updater : Updater) : Updater :=
  if updater.updaterStarted then
    { updater with lastId := 0, updaterStarted := false }.clearTimeout updater.globalTimer
  else updater

/-- What happens to the updater: one of the armed timeouts fires, or one of the
fetches in flight ends; times are those of the clock. -/
inductive Event where
  | start
  | stop
  | fire (timeout : Nat) (now : Int)
  | respond (fetch : Nat) (now : Int) (response : Response)

def step (settings : Settings) (updater : Updater) : Event → Updater
  | .start => start settings updater
  | .stop => stop updater
  | .fire index now =>
    match updater.timeouts[index]? with
    | none => updater
    | some timeout =>
      let updater := { updater with timeouts := updater.timeouts.eraseIdx index }
      match timeout.callback with
      | .updateCallback => updateCallback settings updater now
      | .updatePartStart => updatePartStart updater
  | .respond index now response =>
    match updater.fetches[index]? with
    | none => updater
    | some _ =>
      onResponse settings { updater with fetches := updater.fetches.eraseIdx index } now response

/-- The updater after a history. -/
def updaterAfter (settings : Settings) (history : List Event) : Updater :=
  after (step settings) {} history

/-- The chains that are live. -/
def Updater.chains (updater : Updater) : Nat := updater.timeouts.length + updater.fetches.length

end NetGraphz.ClientUpdater
