import NetGraphz.Base.Heap
import NetGraphz.Base.History
import NetGraphz.Base.JsValue

/-! The event bus of the web client over its publish and subscribe library.
Subscribers are called one by one, and each may use the bus again before it
returns; what is not published synchronously waits for the event loop, which may
call what waits in any order here.

Topics are ordinary keys of `messages` here. In the library two are not:
`__proto__` reaches the setter of `Object.prototype`, so that its subscribers are
never found, and `hasOwnProperty` hides the method that `messages` is asked with,
so that later calls throw. What is said of calls and their order assumes that
neither is subscribed to, and that callbacks of `setTimeout(.., 0)` are called in
the order in which they were set (`OrdinaryRun`). Browsers keep that order, except
that a timer which is set deep inside other timers may be made to wait longer. -/
namespace NetGraphz.EventBus

/-! ## Subscriptions -/

/-- An object of `messages`: the functions by the numbers of their tokens, in
order. `topic` is the key it was made for. -/
structure Subscribers (F : Type u) where
  topic : String
  funcs : List (Nat × F)

/-- `messages` and `lastUid`, which is one less than the number here. Objects are
kept by identity, as a delivery goes on with the one it began with. -/
structure Bus (F : Type u) where
  objects : Heap (Subscribers F) := {}
  messages : List (String × Ref) := []
  lastUid : Nat := 0

variable {F : Type u} {D : Type v}

/-- The functions of an object. -/
def Bus.funcsOf (bus : Bus F) (ref : Ref) : List (Nat × F) :=
  ((bus.objects.read ref).map Subscribers.funcs).getD []

/-- `'uid_' + n`. -/
def token (uid : Nat) : String := "uid_" ++ toString uid

/-- The object of a topic, made if there is none. -/
def registered (bus : Bus F) (message : String) : Bus F × Ref :=
  match bus.messages.lookup message with
  | some ref => (bus, ref)
  | none =>
    ({ bus with
        objects := (bus.objects.alloc ⟨message, []⟩).1
        messages := bus.messages ++ [(message, bus.objects.next)] }, bus.objects.next)

/-- `PubSub.subscribe`; what is no function is refused. -/
def subscribe (bus : Bus F) (message : String) : Option F → Bus F × Option Nat
  | none => (bus, none)
  | some func =>
    let (bus, ref) := registered bus message
    let add (object : Subscribers F) := { object with funcs := object.funcs ++ [(bus.lastUid, func)] }
    ({ bus with objects := bus.objects.modify ref add, lastUid := bus.lastUid + 1 },
      some bus.lastUid)

/-- What `unsubscribe` is given, and what it returns. -/
inductive Value (F : Type u) where
  | text (value : String)
  | function (value : F)

inductive Answer where
  | undefined
  | no
  | yes
  | text (value : String)
  deriving DecidableEq

/-- The functions of an object that are left by a test. -/
def keepFuncs (keeps : Nat × F → Bool) (object : Subscribers F) : Subscribers F :=
  { object with funcs := object.funcs.filter keeps }

/-- `message[value]` is there: an own property, or one every object inherits. -/
def hasProperty (funcs : List (Nat × F)) (value : String) : Bool :=
  funcs.any (fun entry => token entry.1 = value) || Table.standardNames.contains value

/-- `PubSub.unsubscribe`. -/
def unsubscribe [DecidableEq F] (bus : Bus F) : Value F → Bus F × Answer
  | .text value =>
    if (bus.messages.lookup value).isSome then
      ({ bus with messages := bus.messages.filter fun message => message.1 ≠ value }, .undefined)
    else
      match bus.messages.find? fun message => hasProperty (bus.funcsOf message.2) value with
      | none => (bus, .no)
      | some (_, ref) =>
        let others := keepFuncs fun entry => token entry.1 ≠ value
        ({ bus with objects := bus.objects.modify ref others }, .text value)
  | .function value =>
    let others := keepFuncs fun entry : Nat × F => entry.2 ≠ value
    let found := bus.messages.any fun message =>
      (bus.funcsOf message.2).any fun entry => entry.2 = value
    let objects := bus.messages.foldl (fun objects message => objects.modify message.2 others)
      bus.objects
    ({ bus with objects := objects }, if found then .yes else .no)

/-- `PubSub.clearSubscriptions`: the topics that begin with the text. -/
def clearSubscriptions (bus : Bus F) (topic : String) : Bus F :=
  { bus with messages := bus.messages.filter fun message => !topic.toList.isPrefixOf message.1.toList }

/-- `PubSub.clearAllSubscriptions`. -/
def clearAllSubscriptions (bus : Bus F) : Bus F := { bus with messages := [] }

/-! ## Topics -/

/-- `topic.substr(0, topic.lastIndexOf('.'))`, if there is a dot. -/
def beforeLastDot : List Char → Option (List Char)
  | [] => none
  | c :: rest =>
    match beforeLastDot rest with
    | some above => some (c :: above)
    | none => if c = '.' then some [] else none

def cut (topic : String) : Option String := (beforeLastDot topic.toList).map String.ofList

/-- What the loop over the hierarchy makes of a topic. -/
def cuts : Nat → String → List String
  | 0, _ => []
  | fuel + 1, topic =>
    match cut topic with
    | none => []
    | some above => above :: cuts fuel above

/-- The topics a message is delivered to, in order. -/
def levels (message : String) : List String := message :: cuts message.length message

/-- `messageHasSubscribers`. -/
def messageHasSubscribers (bus : Bus F) (message : String) : Bool :=
  (levels message).any fun topic =>
    match bus.messages.lookup topic with
    | none => false
    | some ref => !(bus.funcsOf ref).isEmpty

/-! ## Deliveries -/

/-- A call of a subscriber, and the delivery it is made for. -/
structure Call (F : Type u) (D : Type v) where
  number : Nat
  sync : Bool
  topic : String
  uid : Nat
  func : F
  message : String
  data : D

/-- A delivery under way, in a call: the loop over `subscribers` has `keys` left,
the one over the hierarchy `topics`. `since` is how many subscriptions had been
made when it began. -/
structure Delivery (D : Type v) where
  number : Nat
  sync : Bool
  message : String
  data : D
  since : Nat
  topic : String
  subscribers : Ref
  keys : List Nat
  topics : List String

/-- The loop goes on to the next of its keys that is still there. -/
def nextKey (funcs : List (Nat × F)) : List Nat → Option (Nat × F × List Nat)
  | [] => none
  | uid :: rest =>
    match funcs.lookup uid with
    | none => nextKey funcs rest
    | some func => some (uid, func, rest)

/-- The next topic that has a subscriber: the delivery as it is then, less its
keys, which are those of the object. -/
def nextTopic (bus : Bus F) (delivery : Delivery D) :
    List String → Option (Nat × F × Delivery D)
  | [] => none
  | topic :: topics =>
    match bus.messages.lookup topic with
    | none => nextTopic bus delivery topics
    | some ref =>
      match nextKey (bus.funcsOf ref) ((bus.funcsOf ref).map Prod.fst) with
      | none => nextTopic bus delivery topics
      | some (uid, func, keys) =>
        some (uid, func,
          { delivery with topic := topic, subscribers := ref, keys := keys, topics := topics })

/-- The next call of a delivery that is under way. -/
def advance (bus : Bus F) (delivery : Delivery D) : Option (Nat × F × Delivery D) :=
  match nextKey (bus.funcsOf delivery.subscribers) delivery.keys with
  | some (uid, func, keys) => some (uid, func, { delivery with keys := keys })
  | none => nextTopic bus delivery delivery.topics

/-- A delivery that went all the way. -/
structure Finished where
  number : Nat
  message : String
  since : Nat

/-- The bus, the deliveries that wait for the event loop, and those that are
under way, the innermost first. `made` logs the subscriptions by their uid, each
with its topic and object, `calls` what was called, `finished` what was
delivered; `published` counts. -/
structure Machine (F : Type u) (D : Type v) where
  bus : Bus F := {}
  timers : List (Nat × String × D) := []
  running : List (Delivery D) := []
  published : Nat := 0
  made : List (String × Ref × F) := []
  calls : List (Call F D) := []
  finished : List Finished := []

/-- A delivery goes on, or ends. -/
def goOn (machine : Machine F D) (delivery : Delivery D) (below : List (Delivery D)) :
    Option (Nat × F × Delivery D) → Machine F D
  | none =>
    { machine with
      running := below
      finished := machine.finished ++ [⟨delivery.number, delivery.message, delivery.since⟩] }
  | some (uid, func, delivery) =>
    { machine with
      running := delivery :: below
      calls := machine.calls ++
        [⟨delivery.number, delivery.sync, delivery.topic, uid, func, delivery.message,
          delivery.data⟩] }

/-- `deliverNamespaced`, up to its first call. -/
def deliver (machine : Machine F D) (number : Nat) (sync : Bool) (message : String) (data : D) :
    Machine F D :=
  let delivery : Delivery D :=
    ⟨number, sync, message, data, machine.bus.lastUid, message, 0, [], []⟩
  goOn machine delivery machine.running (nextTopic machine.bus delivery (levels message))

/-- What the code does that is running: the innermost subscriber, or else the
page. `ret` is the subscriber's return; if it throws, that shows later. `turn` is
the event loop's, for one of the deliveries that wait. -/
inductive PageAction (F : Type u) (D : Type v) where
  | subscribe (message : String) (func : Option F)
  | unsubscribe (value : Value F)
  | clearSubscriptions (topic : String)
  | clearAllSubscriptions
  | publish (message : String) (data : D)
  | publishSync (message : String) (data : D)
  | ret
  | turn (timer : Nat)

/-- A key of `messages` like any other. -/
def OrdinaryTopic (topic : String) : Prop := topic ≠ "__proto__" ∧ topic ≠ "hasOwnProperty"

instance (topic : String) : Decidable (OrdinaryTopic topic) :=
  inferInstanceAs (Decidable (_ ∧ _))

/-- What is assumed of a run: topics that are subscribed to are ordinary, and the
event loop delivers what has waited longest. -/
structure OrdinaryRun (history : List (PageAction F D)) : Prop where
  topics : ∀ message func, .subscribe message func ∈ history → OrdinaryTopic message
  fifo : ∀ timer, .turn timer ∈ history → timer = 0

def step [DecidableEq F] (machine : Machine F D) : PageAction F D → Machine F D
  | .subscribe message func =>
    { machine with
      bus := (subscribe machine.bus message func).1
      made := machine.made ++
        (func.map fun func => (message, (registered machine.bus message).2, func)).toList }
  | .unsubscribe value => { machine with bus := (unsubscribe machine.bus value).1 }
  | .clearSubscriptions topic => { machine with bus := clearSubscriptions machine.bus topic }
  | .clearAllSubscriptions => { machine with bus := clearAllSubscriptions machine.bus }
  | .publish message data =>
    if messageHasSubscribers machine.bus message then
      { machine with
        timers := machine.timers ++ [(machine.published, message, data)]
        published := machine.published + 1 }
    else machine
  | .publishSync message data =>
    if messageHasSubscribers machine.bus message then
      deliver { machine with published := machine.published + 1 } machine.published true message data
    else machine
  | .ret =>
    match machine.running with
    | [] => machine
    | delivery :: below => goOn machine delivery below (advance machine.bus delivery)
  | .turn timer =>
    match machine.running, machine.timers[timer]? with
    | [], some (number, message, data) =>
      deliver { machine with timers := machine.timers.eraseIdx timer } number false message data
    | _, _ => machine

/-- The page after a history. -/
def machineAfter [DecidableEq F] (history : List (PageAction F D)) : Machine F D :=
  after step {} history

/-! ## `netgraphz.eventBus` -/

/-- `emit` of the publisher of a name. -/
def emit (name event : String) (data : D) : PageAction F D := .publish (name ++ "." ++ event) data

/-- `emitSync`. -/
def emitSync (name event : String) (data : D) : PageAction F D :=
  .publishSync (name ++ "." ++ event) data

/-- `exports.subscribe`, with the name of an event or without. -/
def busSubscribe (topic : String) (event : Option String) (cb : Option F) : PageAction F D :=
  .subscribe (event.elim topic fun event => topic ++ "." ++ event) cb

end NetGraphz.EventBus
