import NetGraphz.ClientStore

/-! Every request of the web client, from its callback's side: the events that
the platform delivers, and the calls that the handlers make of them. -/
namespace NetGraphz.Fetcher
open ClientStore (Response FetchError)

/-- `xhr.readyState`. -/
inductive ReadyState where
  | unsent | opened | headersReceived | loading | done
  deriving DecidableEq

/-- What a callback makes of the world, and whether it throws. -/
abbrev Callback (W : Type) := W → (value : JsValue) → (code : Nat) → FetchError → W × Bool

/-- `xhr.onreadystatechange`, and whether it threw. What is thrown inside the
`try` is called back as an error. -/
def onReadyStateChange (parse : String → Option JsValue) (response : Response) (callback : Callback W)
    (readyState : ReadyState) (world : W) : W × Bool :=
  if readyState = .done then
    match response.response with
    | none => callback world .null response.status (.text response.statusText)
    | some body =>
      if body = "" then
        callback world (.obj []) response.status (.text "Server retuned empty response")
      else
        match parse body with
        | none => callback world (.obj []) response.status .thrown
        | some value =>
          match callback world value response.status .null with
          | (world, false) => (world, false)
          | (world, true) => callback world (.obj []) response.status .thrown
  else (world, false)

/-- `xhr.onerror`. -/
def onError (response : Response) (callback : Callback W) (world : W) : W × Bool :=
  callback world (response.response.elim .null .str) response.status .flag

/-- An event of a request. -/
inductive Event where
  | readyStateChange (readyState : ReadyState)
  | error

/-- The handler of an event. The platform reports what it throws, and goes on. -/
def deliver (parse : String → Option JsValue) (response : Response) (callback : Callback W)
    (world : W) : Event → W
  | .readyStateChange readyState => (onReadyStateChange parse response callback readyState world).1
  | .error => (onError response callback world).1

/-- `_fetch_json`, from the request to the last of its events. -/
def fetchJson (parse : String → Option JsValue) (response : Response) (callback : Callback W)
    (world : W) (events : List Event) : W :=
  events.foldl (deliver parse response callback) world

/-- The events that the platform delivers: some changes of state, the one to
`done`, and an error when the network failed. -/
inductive Delivered (response : Response) : List Event → Prop where
  | done (ends : response.failed = false) : Delivered response [.readyStateChange .done]
  | failed (ends : response.failed = true) : Delivered response [.readyStateChange .done, .error]
  | earlier (pending : readyState ≠ .done) (rest : Delivered response events) :
      Delivered response (.readyStateChange readyState :: events)

/-! ## The calls of a callback -/

/-- One call: its arguments. -/
structure Invocation where
  value : JsValue
  code : Nat
  error : FetchError

/-- A callback whose calls are recorded. -/
def recorded (callback : Callback W) : Callback (W × List Invocation) :=
  fun (world, calls) value code error =>
    let (world, threw) := callback world value code error
    ((world, calls ++ [⟨value, code, error⟩]), threw)

/-- The calls that a request makes of its callback. -/
def invocations (parse : String → Option JsValue) (response : Response) (callback : Callback W)
    (world : W) (events : List Event) : List Invocation :=
  (fetchJson parse response (recorded callback) (world, []) events).2

/-- The callback is called with the value that was read, and throws. -/
def ThrowsOnValue (parse : String → Option JsValue) (response : Response) (callback : Callback W)
    (world : W) : Prop :=
  ∃ body value, response.response = some body ∧ body ≠ "" ∧ parse body = some value ∧
    (callback world value response.status .null).2 = true

variable {parse : String → Option JsValue} {response : Response} {callback : Callback W}
variable {world : W} {events : List Event}

/-- Before the response is there, nothing is called. -/
theorem onReadyStateChange_pending (pending : readyState ≠ .done) :
    onReadyStateChange parse response callback readyState world = (world, false) :=
  if_neg pending

/-- The last change of state calls back once, or twice when the callback throws
on the value: what it threw is called back as an error. -/
theorem onReadyStateChange_calls (parse : String → Option JsValue) (response : Response)
    (callback : Callback W) (world : W) (calls : List Invocation) :
    let after := (onReadyStateChange parse response (recorded callback) .done (world, calls)).1.2
    (ThrowsOnValue parse response callback world → after.length = calls.length + 2) ∧
      (¬ ThrowsOnValue parse response callback world → after.length = calls.length + 1) := by
  unfold onReadyStateChange ThrowsOnValue
  cases response.response with
  | none => simp [recorded]
  | some body =>
    by_cases empty : body = ""
    · simp [empty, recorded]
    · cases parsed : parse body with
      | none => simp [empty, parsed, recorded]
      | some value =>
        cases threw : (callback world value response.status .null).2 with
        | false => simp [empty, parsed, threw, recorded]
        | true => simp [empty, parsed, threw, recorded]

/-- Recording the calls of an event changes nothing else. -/
theorem deliver_recorded (state : W × List Invocation) (event : Event) :
    (deliver parse response (recorded callback) state event).1 =
      deliver parse response callback state.1 event := by
  cases event with
  | error => rfl
  | readyStateChange readyState =>
    simp only [deliver, onReadyStateChange]
    split
    · cases response.response with
      | none => rfl
      | some body =>
        by_cases empty : body = ""
        · simp [empty, recorded]
        · cases parsed : parse body with
          | none => simp [empty, parsed, recorded]
          | some value =>
            simp only [if_neg empty, parsed, recorded]
            rcases callback state.1 value response.status .null with ⟨after, threw⟩
            cases threw with
            | false => rfl
            | true => rfl
    · rfl

theorem fetchJson_recorded (state : W × List Invocation) (events : List Event) :
    (fetchJson parse response (recorded callback) state events).1 =
      fetchJson parse response callback state.1 events := by
  induction events generalizing state with
  | nil => rfl
  | cons event rest ih =>
    have next := ih (deliver parse response (recorded callback) state event)
    rwa [deliver_recorded] at next

/-- A callback of the page, which does not look at the code. -/
def ofPage (callback : ClientStore.Page → JsValue → FetchError → ClientStore.Page × Bool) :
    Callback ClientStore.Page :=
  fun page value _ error => callback page value error

theorem onReadyStateChange_page
    (callback : ClientStore.Page → JsValue → FetchError → ClientStore.Page × Bool)
    (page : ClientStore.Page) :
    (onReadyStateChange parse response (ofPage callback) .done page).1 =
      ClientStore.onReadyStateChange parse response callback page := by
  simp only [onReadyStateChange, ClientStore.onReadyStateChange, ofPage, if_true]
  cases response.response with
  | none => rfl
  | some body =>
    by_cases empty : body = ""
    · simp only [if_pos empty]
    · simp only [if_neg empty]
      cases parse body with
      | none => rfl
      | some value =>
        rcases called : callback page value .null with ⟨after, threw⟩
        cases threw with
        | false => simp only [called]
        | true => simp only [called]

/-- The fetch of the node store is a request with all its events. -/
theorem fetchJson_page
    (callback : ClientStore.Page → JsValue → FetchError → ClientStore.Page × Bool)
    (page : ClientStore.Page) (delivered : Delivered response events) :
    fetchJson parse response (ofPage callback) page events =
      ClientStore.fetchJson parse response callback page := by
  induction delivered with
  | done ends => simp [fetchJson, deliver, onReadyStateChange_page, ClientStore.fetchJson, ends]
  | failed ends =>
    simp [fetchJson, deliver, onReadyStateChange_page, ClientStore.fetchJson, ends, onError, ofPage,
      ClientStore.onError]
  | earlier pending rest ih =>
    rw [← ih, fetchJson, List.foldl_cons, deliver, onReadyStateChange_pending pending]
    rfl

/-- **A request calls back exactly once** when the network does not fail and the
callback does not throw on the value, and else more than once. To record the
calls changes nothing (`fetchJson_recorded`), and the fetch of the node store is
such a request (`fetchJson_page`). -/
theorem called_once_iff (parse : String → Option JsValue) (response : Response)
    (callback : Callback W) (world : W) (events : List Event) (delivered : Delivered response events) :
    (invocations parse response callback world events).length = 1 ↔
      response.failed = false ∧ ¬ ThrowsOnValue parse response callback world := by
  obtain ⟨twice, once⟩ := onReadyStateChange_calls parse response callback world []
  induction delivered with
  | done ends =>
    have calls : invocations parse response callback world [.readyStateChange .done] =
      (onReadyStateChange parse response (recorded callback) .done (world, [])).1.2 := rfl
    rw [calls]
    by_cases throws : ThrowsOnValue parse response callback world
    · simp [throws, twice throws]
    · simp [throws, ends, once throws]
  | failed ends =>
    have calls : (invocations parse response callback world [.readyStateChange .done, .error]).length =
        (onReadyStateChange parse response (recorded callback) .done (world, [])).1.2.length + 1 := by
      simp [invocations, fetchJson, deliver, onError, recorded]
    rw [calls]
    by_cases throws : ThrowsOnValue parse response callback world
    · simp [ends, twice throws]
    · simp [ends, once throws]
  | earlier pending rest ih =>
    rw [← ih, invocations, fetchJson, List.foldl_cons, deliver, onReadyStateChange_pending pending]
    rfl

/-- A body that parses, all states passed through. -/
theorem a_read_value_is_called_back_once :
    let response : Response := ⟨200, "OK", some "[]", false⟩
    let callback : Callback Unit := fun _ _ _ _ => ((), false)
    (invocations (fun _ => some (.arr [])) response callback ()
      [.readyStateChange .opened, .readyStateChange .headersReceived, .readyStateChange .loading,
        .readyStateChange .done]).length = 1 := by
  intro response callback
  refine (called_once_iff _ response callback () _ ?_).mpr ⟨rfl, ?_⟩
  · exact .earlier nofun (.earlier nofun (.earlier nofun (.done rfl)))
  · rintro ⟨_, _, _, _, _, threw⟩
    cases threw

/-- A network failure is called back as an empty response, and then as an error. -/
theorem a_failure_is_called_back_twice :
    ¬ ∀ (W : Type) parse response (callback : Callback W) world events, Delivered response events →
      (invocations parse response callback world events).length = 1 := by
  intro claimed
  have once := claimed Unit (fun _ => none) ⟨0, "", some "", true⟩ (fun _ _ _ _ => ((), false)) ()
    [.readyStateChange .done, .error] (.failed rfl)
  exact absurd once (Nat.succ_succ_ne_one 0)

end NetGraphz.Fetcher
