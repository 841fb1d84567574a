import NetGraphz.Fetcher
import NetGraphz.InitialLoad

/-! The start of the page: the status, the user's parameters, the nodes part by
part and the links are fetched one after another, and then the graph is shown.
Requests are answered, and timers run, in any order; and a request that the
network fails is called back twice. -/
namespace NetGraphz.PageStart
open GraphStorage NodeParts InitialLoad

/-- A request that is not answered yet. -/
inductive Request where
  | status
  | userParameters
  | part (lastId : Int)
  | links
  deriving DecidableEq

variable {π lam : Type}

/-- What `start_netgraphz` is run with. -/
structure Start (π lam : Type) where
  params : Option π
  nodes : List Host
  links : Option lam

/-- The variables of the start-up script, its requests, and its timers, all of
which call `fetch_part`. `last_id`, `last_retry_time`, `nodes` and `load_cancel`
are those of the loader. -/
structure Page (π lam : Type) where
  fetchLevel : Nat := 0
  loader : Loader := {}
  params : Option π := none
  links : Option lam := none
  requests : List Request := []
  timers : Nat := 0
  starts : List (Start π lam) := []

/-- How a request ends: with a body of its kind, with one that is empty or no
JSON, or with a failure of the network. What it calls back then is what the
fetcher calls (`calls_eq_invocations`). -/
inductive Outcome where
  | read
  | unreadable
  | failed
  deriving DecidableEq

/-- An answer, with the body it has if it is read, whatever was asked for. -/
structure Answer (π lam : Type) where
  outcome : Outcome
  params : π
  nodes : List Host
  links : lam

/-- The calls of the callback that the fetcher makes: whether each has a value. -/
def Outcome.calls : Outcome → List Bool
  | .read => [true]
  | .unreadable => [false]
  | .failed => [false, false]

/-- `start_netgraphz`. -/
def startNetgraphz (page : Page π lam) : Page π lam :=
  { page with starts := page.starts ++ [⟨page.params, page.loader.nodes, page.links⟩] }

/-- `update_sequence`. -/
def updateSequence (page : Page π lam) : Page π lam :=
  let page := { page with fetchLevel := page.fetchLevel + 1 }
  match page.fetchLevel with
  | 1 => { page with requests := page.requests ++ [.userParameters] }
  | 2 => { page with timers := page.timers + 1 }
  | 3 => { page with requests := page.requests ++ [.links] }
  | _ => startNetgraphz page

/-- `load_cancel = true`. -/
def cancel (page : Page π lam) : Page π lam :=
  { page with loader := { page.loader with loadCancel := true } }

/-- What the script has attached to the end of the status request. -/
def onStatus (page : Page π lam) (read : Bool) : Page π lam :=
  if read then updateSequence page else cancel page

/-- The callback of `start_fetch_user_params`. -/
def onUserParameters (params : π) (page : Page π lam) (read : Bool) : Page π lam :=
  if page.loader.loadCancel then page
  else if read then updateSequence { page with params := some params }
  else cancel page

/-- The callback of `fetch_part`. After an error the part is fetched again,
until the retries run out; a short part ends the load. -/
def onPart (settings : Settings) (nodes : List Host) (page : Page π lam) (read : Bool) :
    Page π lam :=
  if read then
    let page := { page with loader := InitialLoad.onPart settings page.loader (some nodes) }
    if nodes.length < settings.nodePartSize.size then updateSequence page
    else { page with timers := page.timers + 1 }
  else
    let page := { page with loader := InitialLoad.onPart settings page.loader none }
    if some page.loader.lastRetryTime = settings.nodeRetryTimes then page
    else { page with timers := page.timers + 1 }

/-- The callback of `start_fetch_links`. -/
def onLinks (links : lam) (page : Page π lam) (read : Bool) : Page π lam :=
  if page.loader.loadCancel then page
  else if read then updateSequence { page with links := some links }
  else cancel page

/-- The callback of a request. -/
def callback (settings : Settings) (answer : Answer π lam) :
    Request → Page π lam → Bool → Page π lam
  | .status => onStatus
  | .userParameters => onUserParameters answer.params
  | .part _ => onPart settings answer.nodes
  | .links => onLinks answer.links

/-- A second error tells most callbacks nothing new: then a failure of the network,
which is called back twice, is like any other error. -/
theorem foldl_calls {heard : Page π lam → Bool → Page π lam}
    (settled : ∀ page, heard (heard page false) false = heard page false)
    (page : Page π lam) (outcome : Outcome) :
    outcome.calls.foldl heard page = heard page (decide (outcome = .read)) := by
  cases outcome with
  | read => rfl
  | unreadable => rfl
  | failed => exact settled page

theorem onStatus_settled (page : Page π lam) :
    onStatus (onStatus page false) false = onStatus page false := rfl

theorem onUserParameters_settled (params : π) (page : Page π lam) :
    onUserParameters params (onUserParameters params page false) false =
      onUserParameters params page false := by
  by_cases given : page.loader.loadCancel <;> simp [onUserParameters, given, cancel]

theorem onLinks_settled (links : lam) (page : Page π lam) :
    onLinks links (onLinks links page false) false = onLinks links page false := by
  by_cases given : page.loader.loadCancel <;> simp [onLinks, given, cancel]

/-- What happens: the request at a position ends, or a timer runs. -/
inductive Event (π lam : Type) where
  | answered (i : Nat) (answer : Answer π lam)
  | timer

/-- `fetch_part`, run by a timer. -/
def fetchPart (page : Page π lam) : Page π lam :=
  { page with
    timers := page.timers - 1
    requests := page.requests ++ [.part page.loader.lastId] }

def step (settings : Settings) (page : Page π lam) : Event π lam → Page π lam
  | .answered i answer =>
    match page.requests[i]? with
    | none => page
    | some request =>
      answer.outcome.calls.foldl (callback settings answer request)
        { page with requests := page.requests.eraseIdx i }
  | .timer => if page.timers = 0 then page else fetchPart page

/-- The page as it is loaded: the status is being fetched. -/
def loadedPage : Page π lam := { requests := [.status] }

/-- The page after what has happened. -/
def pageAfter (settings : Settings) (history : List (Event π lam)) : Page π lam :=
  after (step settings) loadedPage history

/-! ## The calls of the fetcher -/

/-- How a request with some body ends. -/
def outcomeOf (parse : String → Option JsValue) (body : String) (failed : Bool) : Outcome :=
  if failed then .failed
  else if body = "" then .unreadable
  else if (parse body).isSome then .read
  else .unreadable

/-- **These are the calls that the fetcher makes** of a callback that does not
throw, whatever else it does. A failed network leaves an empty body. -/
theorem calls_eq_invocations (parse : String → Option JsValue) (response : ClientStore.Response)
    (held : response.response = some body) (empty : response.failed = true → body = "")
    (heard : Fetcher.Callback W)
    (quiet : ∀ world value code err, (heard world value code err).2 = false) (world : W)
    (delivered : Fetcher.Delivered response events) :
    (Fetcher.invocations parse response heard world events).map (fun call => !call.error.truthy) =
      (outcomeOf parse body response.failed).calls := by
  induction delivered with
  | done ends =>
    by_cases none : body = ""
    · simp [Fetcher.invocations, Fetcher.fetchJson, Fetcher.deliver, Fetcher.onReadyStateChange,
        Fetcher.recorded, held, none, outcomeOf, ends, Outcome.calls, ClientStore.FetchError.truthy]
    · cases parsed : parse body <;>
        simp [Fetcher.invocations, Fetcher.fetchJson, Fetcher.deliver, Fetcher.onReadyStateChange,
          Fetcher.recorded, held, none, parsed, outcomeOf, ends, Outcome.calls, quiet,
          ClientStore.FetchError.truthy]
  | failed ends =>
    simp [Fetcher.invocations, Fetcher.fetchJson, Fetcher.deliver, Fetcher.onReadyStateChange,
      Fetcher.onError, Fetcher.recorded, held, empty ends, outcomeOf, ends, Outcome.calls,
      ClientStore.FetchError.truthy]
  | earlier pending rest ih =>
    rw [← ih, Fetcher.invocations, Fetcher.fetchJson, List.foldl_cons, Fetcher.deliver,
      Fetcher.onReadyStateChange_pending pending]
    rfl

end NetGraphz.PageStart
