import NetGraphz.Base.GoText
import NetGraphz.CliOptions
import NetGraphz.MetricsEndpoint

/-! The shell: the lines that are typed, the commands they name, the connection
to a backend that one of them makes and the others need. -/
namespace NetGraphz.Shell
open CliOptions GoMap GoText
open MetricsEndpoint (AllMetricsRequest RpcMetric)

/-- A line of text, by its characters. -/
abbrev Text := List Char

/-- `ConsoleInstance`; a connection and a client stand for the address that was
dialed. -/
structure ConsoleInstance where
  connection : Option Text := none
  client : Option Text := none
  deriving DecidableEq

/-- `rpc.StatusResponse`, as far as it is shown. -/
structure StatusResponse where
  nNodes : Int
  nLinks : Int
  nMetrics : Int

inductive ShellError where
  | text (message : String)
  | number (err : NumError)
  deriving DecidableEq

/-- What is printed. A metric stands for its `* %v` line, an error for its
`Error: %v` line. -/
inductive Printed where
  | text (line : String)
  | metric (m : RpcMetric)
  | error (err : ShellError)
  deriving DecidableEq

inductive Request where
  | allMetrics (req : AllMetricsRequest)
  | status (time : Int)

/-- What the outside does while a line is carried out: the error of a dial, the
answers of the backend at an address, and the time. A stream comes with the
error that ends it, or none at its end. -/
structure World where
  dial : Text → Option String
  getAllMetrics : Text → AllMetricsRequest → Except String (List RpcMetric × Option String)
  getStatus : Text → Except String StatusResponse
  now : Int

/-- What a command does: the console it leaves, the requests it sends and to
where, what it prints, and its error. A call without a client crashes. -/
inductive Outcome where
  | done (console : ConsoleInstance) (sent : List (Text × Request)) (printed : List Printed)
      (err : Option ShellError)
  | exited
  | crashed

/-! ## `list` -/

/-- `PrintUsage`. -/
def printUsage : List Printed :=
  [.text "usage: list object [options]\n",
    .text "objects: metrics\n",
    .text "options: \n",
    .text "skip=n_skip - skip n_skip records\n",
    .text "take=n_take - limit output to n_take records\n",
    .text "metrics options: \n",
    .text "host=hostname - filter by host name"]

/-- What `list_metrics` reads from its options. -/
structure Settings where
  nSkip : Int := 0
  nTake : Int := -1
  filterHost : Bool := false
  host : Text := []
  deriving DecidableEq

/-- The body of the loop over the options. -/
def readOption (settings : Settings) (option : Sigma fun _ : Text => Text) :
    Except ShellError Settings :=
  if option.1 = "host".toList then .ok { settings with filterHost := true, host := option.2 }
  else if option.1 = "skip".toList then
    match parseInt64 option.2 with
    | .ok n => .ok { settings with nSkip := n }
    | .error err => .error (.number err)
  else if option.1 = "take".toList then
    match parseInt64 option.2 with
    | .ok n => .ok { settings with nTake := n }
    | .error err => .error (.number err)
  else .error (.text ("Option " ++ String.ofList option.1 ++ " is not supported. Yet?"))

def Settings.request (settings : Settings) : AllMetricsRequest where
  nSkip := settings.nSkip
  nTake := settings.nTake
  filterHostName := settings.filterHost
  hostName := String.ofList settings.host

/-- `list_metrics`. -/
def listMetrics (console : ConsoleInstance) (world : World) (order : Order fun _ : Text => Text)
    (options : OptionMap) : Outcome :=
  match (order.entries options).foldlM readOption {} with
  | .error err => .done console [] printUsage (some err)
  | .ok settings =>
    match console.client with
    | none => .crashed
    | some client =>
      let req := settings.request
      match world.getAllMetrics client req with
      | .error err => .done console [(client, .allMetrics req)] [] (some (.text err))
      | .ok (stream, ended) =>
        .done console [(client, .allMetrics req)] (stream.map Printed.metric)
          (ended.map ShellError.text)

/-- `ListCmdlet.ExecuteCommand`. -/
def executeList (console : ConsoleInstance) (world : World) (order : Order fun _ : Text => Text) :
    List Text → Outcome
  | _ :: object :: rest =>
    let rawOptions : Except String OptionMap :=
      if rest = [] then .ok ∅ else parseEqOptions ([' '].intercalate rest)
    match rawOptions with
    | .error err => .done console [] printUsage (some (.text err))
    | .ok options =>
      if object = "metrics".toList then listMetrics console world order options
      else .done console [] [] (some (.text "Object is not supported"))
  | _ => .done console [] printUsage (some (.text "Arguments error"))

/-! ## The other commands -/

/-- `Connect`: on a failure the connection and the client are dropped. -/
def connect (world : World) (hostPort : Text) : ConsoleInstance × Option String :=
  match world.dial hostPort with
  | some err => (⟨none, none⟩, some err)
  | none => (⟨some hostPort, some hostPort⟩, none)

def connectUsage : Printed := .text "usage: connect hostname:port\n"

/-- `ConnectCmdlet.ExecuteCommand`. -/
def executeConnect (console : ConsoleInstance) (world : World) : List Text → Outcome
  | [_, hostPort] =>
    match splitHostPort hostPort with
    | .error _ => .done console [] [connectUsage] (some (.text "Arguments error"))
    | .ok _ =>
      let connecting := Printed.text ("Connecting to " ++ String.ofList hostPort ++ "\n")
      match connect world hostPort with
      | (console, some err) =>
        .done console [] [connecting, .text ("Cannot connect: " ++ err ++ "\n")] (some (.text err))
      | (console, none) => .done console [] [connecting, .text "Connected successfuly!\n"] none
  | _ => .done console [] [connectUsage] (some (.text "Arguments error"))

/-- `StatusCmdlet.ExecuteCommand`. -/
def executeStatus (console : ConsoleInstance) (world : World) : Outcome :=
  match console.client with
  | none => .crashed
  | some client =>
    let getting := Printed.text "Getting server status... \n\n"
    match world.getStatus client with
    | .error err => .done console [(client, .status world.now)] [getting] (some (.text err))
    | .ok resp =>
      .done console [(client, .status world.now)]
        [getting, .text "Server status: \n",
          .text (" Nodes: " ++ toString resp.nNodes ++ "\n Links: " ++ toString resp.nLinks ++
            "\n Metrics: " ++ toString resp.nMetrics ++ "\n")] none

/-! ## The loop -/

/-- `Cmdlet`. -/
structure Cmdlet where
  commandPrefix : Text
  requiresConnection : Bool
  executeCommand : ConsoleInstance → World → (Order fun _ : Text => Text) → List Text → Outcome

/-- `get_cmdlets`. -/
def getCmdlets : List Cmdlet :=
  [⟨"quit".toList, false, fun _ _ _ _ => .exited⟩,
    ⟨"connect".toList, false, fun console world _ tokens => executeConnect console world tokens⟩,
    ⟨"list".toList, true, executeList⟩,
    ⟨"status".toList, true, fun console world _ _ => executeStatus console world⟩]

/-- A line that is typed, with what the outside does meanwhile and the order in
which the loop over the options' map takes them. -/
structure Typed where
  line : Text
  world : World
  order : Order fun _ : Text => Text

/-- A command's error is printed, and that is all. -/
def Outcome.reported : Outcome → Outcome
  | .done console sent printed err =>
    .done console sent (printed ++ (err.map Printed.error).toList) none
  | outcome => outcome

/-- The body of the loop over the lines. -/
def carryOut (console : ConsoleInstance) (typed : Typed) : Outcome :=
  let tokens := typed.line.splitOn ' '
  match getCmdlets.find? fun cmdlet => tokens.head? = some cmdlet.commandPrefix with
  | none => .done console [] [.text "Unknown command!\n"] none
  | some cmdlet =>
    if cmdlet.requiresConnection ∧ console.connection = none then
      .done console []
        [.text "Command requires established server connection.\n",
          .text "Use 'connect' command first to establish connection.\n"] none
    else (cmdlet.executeCommand console typed.world typed.order tokens).reported

/-- The shell waits for a line, or is gone. -/
inductive State where
  | waiting (console : ConsoleInstance)
  | exited
  | crashed
  deriving DecidableEq

def Outcome.state : Outcome → State
  | .done console _ _ _ => .waiting console
  | .exited => .exited
  | .crashed => .crashed

def Outcome.sent : Outcome → List (Text × Request)
  | .done _ sent _ _ => sent
  | _ => []

def Outcome.printed : Outcome → List Printed
  | .done _ _ printed _ => printed
  | _ => []

/-- What becomes of the shell when a line is typed. -/
def step (state : State) (typed : Typed) : State :=
  match state with
  | .waiting console => (carryOut console typed).state
  | gone => gone

end NetGraphz.Shell
