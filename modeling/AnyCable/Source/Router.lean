import AnyCable.Source.StreamsController

/-!
# The channels router

Source: `router/router.go`, `cli/cli.go:379-411,498-517`, `streams/config.go:45-60`,
`streams/controller.go:130-146`, `node/controller.go:20-67`. Commands are passed on by the `channel`
field of their identifiers: `Route` gives a channel to a controller of its own, and everything else
goes to the default controller, the RPC one as a rule. So does a command that the controller of the
channel answers with nothing, as the streams controllers do with `Perform`.

What the default controller says is the argument `fallback`. `none` stands for a panic.
-/

set_option autoImplicit false

namespace AnyCable.Source.Router
open AnyCable.Lib

/-- Channels by name. -/
abbrev Routes := GoMap String Streams.Controller

/-- A channel has one controller. -/
def Routes.route (routes : Routes) (channel : String) (handler : Streams.Controller) :
    Except String Routes :=
  if (routes.lookup channel).isSome then .error ("Route has been already defined: " ++ channel)
  else .ok (routes.insert channel handler)

/-- The parts of the configuration that the router reads. -/
structure Config extends Streams.Config where
  pubSubChannel : String := "$pubsub"
  turbo : Bool := false
  turboSecret : String := ""
  cableReady : Bool := false
  cableReadySecret : String := ""

def Config.getTurboSecret (conf : Config) : String :=
  if conf.turboSecret ≠ "" then conf.turboSecret else conf.secret

def Config.getCableReadySecret (conf : Config) : String :=
  if conf.cableReadySecret ≠ "" then conf.cableReadySecret else conf.secret

/-- A call of `Route` whose error nobody looks at. -/
def Routes.add (routes : Routes) (channel : String) (handler : Streams.Controller) : Routes :=
  match routes.route channel handler with
  | .ok routes => routes
  | .error _ => routes

def defaultRouter (lib : Streams.Library) (conf : Config) : Routes :=
  let routes : Routes := ∅
  let routes := if conf.pubSubChannel ≠ "" then
      routes.add conf.pubSubChannel (Streams.newStreamsController lib conf.toConfig)
    else routes
  let routes := if conf.turbo ∧ conf.getTurboSecret ≠ "" then
      routes.add "Turbo::StreamsChannel" (Streams.newTurboController lib conf.getTurboSecret)
    else routes
  if conf.cableReady ∧ conf.getCableReadySecret ≠ "" then
    routes.add "CableReady::Stream" (Streams.newCableReadyController lib conf.getCableReadySecret)
  else routes

def extractChannel (identifier : String) : String :=
  ((Json.parse identifier).bind
    (unmarshal [JsonField.string "channel" fun text _ => text] "")).getD ""

/-- The text shared by `Subscribe`, `Unsubscribe` and `Perform`. -/
def routed (routes : Routes) (identifier : String)
    (call : Streams.Controller → Option (Answer CommandResult)) (fallback : Answer CommandResult) :
    Option (Answer CommandResult) :=
  let channelName := extractChannel identifier
  if channelName = "" then some fallback
  else match routes.lookup channelName with
    | none => some fallback
    | some handler =>
      (call handler).map fun answer =>
        if answer.res.isSome || answer.err.isSome then answer else fallback

/-- `Unsubscribe` of a streams controller. -/
def streamsUnsubscribe : Answer CommandResult where
  res := some { status := .success, streams := some [], stopAllStreams := true }

/-- `Perform` of a streams controller. -/
def streamsPerform : Answer CommandResult where
  res := none

def subscribe (lib : Streams.Library) (routes : Routes) (identifier : String)
    (fallback : Answer CommandResult) : Option (Answer CommandResult) :=
  routed routes identifier (fun handler => Streams.subscribe lib handler identifier) fallback

def unsubscribe (routes : Routes) (identifier : String) (fallback : Answer CommandResult) :
    Option (Answer CommandResult) :=
  routed routes identifier (fun _ => some streamsUnsubscribe) fallback

def perform (routes : Routes) (identifier : String) (fallback : Answer CommandResult) :
    Option (Answer CommandResult) :=
  routed routes identifier (fun _ => some streamsPerform) fallback

/-- The answer to a command; for the others than these three no controller is asked. -/
def answer (lib : Streams.Library) (routes : Routes) (msg : Message)
    (fallback : Answer CommandResult) : Option (Answer CommandResult) :=
  match msg.command with
  | "subscribe" => subscribe lib routes msg.identifier fallback
  | "unsubscribe" => unsubscribe routes msg.identifier fallback
  | "message" => perform routes msg.identifier fallback
  | _ => some fallback

/-- The answers of a `NullController`, which is the default one without RPC. -/
def nullAnswer (msg : Message) : Answer CommandResult :=
  match msg.command with
  | "subscribe" =>
    { res := some { status := .failure
                    transmissions := [Streams.rejectionMessage msg.identifier]
                    disconnectInterest := -1 } }
  | _ => { res := none, err := some "not implemented" }

end AnyCable.Source.Router
