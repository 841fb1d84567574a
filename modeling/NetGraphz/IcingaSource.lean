import NetGraphz.Base.GoFloat
import NetGraphz.Base.IPText
import NetGraphz.Base.Livestatus
import NetGraphz.Base.Regexp
import NetGraphz.StateCache

/-! The Icinga state source: host states from the answers of MK Livestatus to
queries of its table of hosts. -/
namespace NetGraphz.IcingaSource
open GoFloat Livestatus StateCache

/-! ## Constants of states -/

def STATE_UNREACH : Int16 := 2
def STATE_DOWN : Int16 := 1
def STATE_UP : Int16 := 0

def E_STATE_UP : Int16 := 0
def E_STATE_DOWN : Int16 := 1
def E_STATE_WARNING : Int16 := 2
def E_STATE_UNKNOWN : Int16 := 3
def E_STATE_FLAPPING : Int16 := 4

/-! ## Reading a record -/

def digits : Regexp := .seq (.one Char.isDigit) (.many Char.isDigit)

/-- `([0-9]+\.?[0-9]*)`. -/
def decimalGroup : Regexp :=
  .group (.chain [digits, .optional (· = '.'), .many Char.isDigit])

/-- `([0-9]+)`. -/
def wholeGroup : Regexp := .group digits

/-- `pack_loss_r`, between its anchors. -/
def packLossR : Regexp :=
  .seq (.literal "rta=".toList) (.chain
    [decimalGroup, .literal "ms;".toList, decimalGroup, .literal ";".toList, decimalGroup,
      .literal ";".toList, decimalGroup, .literal " pl=".toList, wholeGroup, .literal "%;".toList,
      wholeGroup, .literal ";".toList, wholeGroup, .literal ";".toList, wholeGroup])

/-- `duplicate_r`, between its anchors; a dot is any character but a newline. -/
def duplicateR : Regexp :=
  .seq (.literal "PING WARNING - DUPLICATES FOUND! ".toList) (.many (· ≠ '\n'))

/-- `getRTTPacketLossFromPerfdata`: the round-trip time, the loss, the flag for
duplicates and the error. -/
def getRTTPacketLossFromPerfdata (perfData : String) :
    Float32Bits × Float32Bits × Bool × Option String :=
  let found := (packLossR.findWhole perfData.toList).getD []
  if found.length ≠ 9 then
    (0, 0, false, some "Perfdata string does not match regular expression")
  else
    let dMatches := (duplicateR.findWhole perfData.toList).getD []
    let dup := decide (dMatches.length > 0)
    match parseFloat32 (found.getD 1 []) with
    | .error err => (0, 0, dup, some err)
    | .ok bRtt =>
      match parseFloat32 (found.getD 5 []) with
      | .error err => (0, 0, dup, some err)
      | .ok bLoss => (bRtt.toBits, bLoss.toBits, dup, none)

/-- `icinga_state_to_effective_state`. -/
def icingaStateToEffectiveState (state hardState : Int16) (hasBeenChecked isFlapping : Bool)
    (numServicesCrit numServicesWarn : Int32) : Int16 :=
  if !hasBeenChecked then E_STATE_UNKNOWN
  else if isFlapping then E_STATE_FLAPPING
  else if state = STATE_UNREACH then
    if numServicesCrit = 0 ∧ numServicesWarn = 0 then E_STATE_UP
    else if hardState = STATE_DOWN then E_STATE_DOWN
    else E_STATE_WARNING
  else if state ≠ STATE_DOWN ∧ (numServicesCrit > 0 ∨ numServicesWarn > 0) then E_STATE_WARNING
  else state

/-- `icinga_state_to_netstate`. -/
def icingaStateToNetstate (state : Int16) : Int16 := state

/-- A reading, or the zero value of its type where it fails, and the last error
so far. -/
def getRecErr (zero : α) (reading : Except String α) (inErr : Option String) : α × Option String :=
  match reading with
  | .ok value => (value, inErr)
  | .error parseErr => (zero, some parseErr)

/-- `get_rec_err_strval`. -/
def getRecErrStrval (r : Record) (field : String) (inErr : Option String) :
    String × Option String := getRecErr "" (r.getString field) inErr

/-- `get_rec_err_intval`. -/
def getRecErrIntval (r : Record) (field : String) (inErr : Option String) :
    Int64 × Option String := getRecErr 0 (r.getInt field) inErr

/-- `get_rec_err_boolval`. -/
def getRecErrBoolval (r : Record) (field : String) (inErr : Option String) :
    Bool × Option String := getRecErr false (r.getBool field) inErr

/-- What the loop over the records carries: the states so far, the state that
every record is written into, and the last error, which is never returned. -/
structure Dispatching where
  states : List HostState := []
  s : HostState := {}
  lastError : Option String := none

/-- The body of the loop of `dispatchLivestatusHostsResponse`. -/
def dispatchRecord (sourceName : String) (loop : Dispatching) (r : Record) : Dispatching :=
  let (notes, lastError) := getRecErrStrval r "notes" loop.lastError
  let (hostName, lastError) := getRecErrStrval r "host_name" lastError
  let (address, lastError) := getRecErrStrval r "address" lastError
  let (address6, lastError) := getRecErrStrval r "address6" lastError
  let (perfData, lastError) := getRecErrStrval r "perf_data" lastError
  let (label, lastError) := getRecErrStrval r "display_name" lastError
  let (name, lastError) := getRecErrStrval r "name" lastError
  let (pluginOutput, lastError) := getRecErrStrval r "plugin_output" lastError
  let (isFlapping, lastError) := getRecErrBoolval r "is_flapping" lastError
  let (isExecuting, lastError) := getRecErrBoolval r "is_executing" lastError
  let (isReachable, lastError) := getRecErrBoolval r "is_reachable" lastError
  let (hasBeenChecked, lastError) := getRecErrBoolval r "has_been_checked" lastError
  let (stateType, lastError) := getRecErrIntval r "state_type" lastError
  let (state, lastError) := getRecErrIntval r "state" lastError
  let (hardState, lastError) := getRecErrIntval r "hard_state" lastError
  let (numServices, lastError) := getRecErrIntval r "num_services" lastError
  let (numServicesOk, lastError) := getRecErrIntval r "num_services_ok" lastError
  let (numServicesCrit, lastError) := getRecErrIntval r "num_services_crit" lastError
  let (numServicesWarn, lastError) := getRecErrIntval r "num_services_warn" lastError
  let (numServicesPending, lastError) := getRecErrIntval r "num_services_pending" lastError
  let (numServicesUnknown, lastError) := getRecErrIntval r "num_services_unknown" lastError
  let (lastCheck, lastError) := getRecErrIntval r "last_check" lastError
  let (rtt, loss, duplicate, err) := getRTTPacketLossFromPerfdata perfData
  let lastError := err.or lastError
  let s := { loop.s with
    hostName := hostName
    name := name
    label := label
    source := sourceName
    hasBeenChecked := hasBeenChecked
    state := icingaStateToNetstate state.toInt16
    effectiveState := icingaStateToEffectiveState state.toInt16 hardState.toInt16 hasBeenChecked
      isFlapping numServicesCrit.toInt32 numServicesWarn.toInt32
    hardState := icingaStateToNetstate hardState.toInt16
    loss := loss
    rtt := rtt
    time := lastCheck.toInt * 1000000000
    notes := notes
    ip := NetIP.parseIP address
    ip6 := NetIP.parseIP address6
    output := pluginOutput
    isFlapping := isFlapping
    isExecuting := isExecuting
    isReachable := isReachable
    numServices := numServices.toInt32
    numServicesOk := numServicesOk.toInt32
    numServicesWarning := numServicesWarn.toInt32
    numServicesCritical := numServicesCrit.toInt32
    numServicesPending := numServicesPending.toInt32
    numServicesUnknown := numServicesUnknown.toInt32
    type := stateType.toInt16
    isDuplicate := duplicate }
  ⟨loop.states ++ [s], s, lastError⟩

/-- `dispatchLivestatusHostsResponse`. -/
def dispatchLivestatusHostsResponse (resp : Response) (sourceName : String) :
    Except String (List HostState) :=
  .ok (resp.records.foldl (dispatchRecord sourceName) {}).states

/-! ## Queries -/

/-- `IcingaLiveStatusConfig`. -/
structure Config where
  hostName : String
  port : UInt16
  useUnixSocket : Bool
  unixSocket : String
  timeoutEnable : Bool
  timeout : Duration

/-- The connection to Livestatus, which answers a query or fails. -/
structure Connection where
  exec : Query → Except String Response
  execTimeout : Duration → Query → Except String Response

/-- `IcingaStateSource`. -/
structure IcingaStateSource where
  config : Config
  l : Connection

/-- `GetSourceName`. -/
def getSourceName : String := "Icinga2MKLiveStatus"

/-- `GetFullName`. -/
def getFullName (self : IcingaStateSource) : String :=
  if self.config.useUnixSocket then getSourceName ++ ":" ++ self.config.unixSocket
  else getSourceName ++ "@" ++ self.config.hostName ++ ":" ++ toString self.config.port.toNat

/-- `execQuery`. -/
def execQuery (self : IcingaStateSource) (query : Query) : Except String Response :=
  if self.config.timeoutEnable then self.l.execTimeout self.config.timeout query
  else self.l.exec query

/-- `getHostsTableStateQuery`. -/
def getHostsTableStateQuery : Query :=
  ({ table := "hosts" } : Query).withColumns
    ["host_name", "name", "last_check", "display_name", "notes", "address", "address6",
      "has_been_checked", "num_services", "num_services_crit", "num_services_warn",
      "num_services_pending", "num_services_ok", "num_services_unknown", "state", "hard_state",
      "state_type", "perf_data", "plugin_output", "is_flapping", "is_executing"]

/-- The query and the dispatch that the lookups end with. -/
def statesOfQuery (self : IcingaStateSource) (q : Query) : Except String (List HostState) :=
  match execQuery self q with
  | .error err => .error err
  | .ok resp => dispatchLivestatusHostsResponse resp (getFullName self)

/-- A query with these rules, one of which has to hold. -/
def queryOfRules (rules : List String) : Query :=
  let q := rules.foldl Query.filter getHostsTableStateQuery
  if rules.length > 1 then q.or rules.length else q

/-- The rule for one name. -/
def ruleOfName (host : String) : String := "host_name = " ++ host

/-- The rule for one address, by the length of its slice. -/
def ruleOfIP (ip : NetIP) : String :=
  if (ip.getD []).length = 16 then "address6 = " ++ ip.string
  else "address = " ++ ip.string

/-- `GetHostsStateByName`. -/
def getHostsStateByName (self : IcingaStateSource) (hostNames : List String) :
    Except String (List HostState) :=
  if hostNames.length = 0 then .ok []
  else statesOfQuery self (queryOfRules (hostNames.map ruleOfName))

/-- `GetHostsStateByIP`. -/
def getHostsStateByIP (self : IcingaStateSource) (ipAddresses : List NetIP) :
    Except String (List HostState) :=
  if ipAddresses.length = 0 then .ok []
  else statesOfQuery self (queryOfRules (ipAddresses.map ruleOfIP))

/-- `GetAllHostsState`. -/
def getAllHostsState (self : IcingaStateSource) : Except String (List HostState) :=
  statesOfQuery self getHostsTableStateQuery

/-- The first state of a lookup. A failed one comes with no states, so that its
error is not what is reported. -/
def firstState : Except String (List HostState) → Except String HostState
  | .ok (state :: _) => .ok state
  | _ => .error "Host not found"

/-- `GetHostStateByName`. -/
def getHostStateByName (self : IcingaStateSource) (hostName : String) : Except String HostState :=
  firstState (getHostsStateByName self [hostName])

/-- `GetHostStateByIP`. -/
def getHostStateByIP (self : IcingaStateSource) (ipAddress : NetIP) : Except String HostState :=
  firstState (getHostsStateByIP self [ipAddress])

end NetGraphz.IcingaSource
