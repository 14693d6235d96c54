import AnyCable.Source.Common

/-!
# Authentication

Source: `identity/identity.go`, `identity/jwt.go:13-160`, `identity/public.go`,
`cli/cli.go:379-411`. A connection is identified by a token or, if authentication is skipped, by its
session id; otherwise the controller is asked. The router hands `Authenticate` on to the controller
it is given.

What libraries do is a parameter: reading a parameter of an URL, verifying a token and lowercasing.
`fmt.Sprintf` puts the session id into its templates as it is.
-/

set_option autoImplicit false

namespace AnyCable.Source.Identity
open AnyCable.Lib

/-- The part of `SessionEnv` that identifiers read. -/
structure Request where
  url : String
  headers : Option (GoMap String String)

abbrev Authenticate := String → Request → Answer ConnectResult

structure JWTConfig where
  secret : String := ""
  param : String := "jid"
  force : Bool := false

def JWTConfig.enabled (c : JWTConfig) : Bool := c.secret ≠ ""

/-- `jwt.MapClaims`: the `ext` claim if it is a string, and what `%v` prints. -/
structure Claims where
  ext : Option String
  shown : String

inductive TokenError where
  | expired | invalid
  deriving DecidableEq, Repr

/-- What `jwt.Parse` returns without an error. -/
structure Token where
  /-- `token.Claims.(jwt.MapClaims)`. -/
  claims : Option Claims
  valid : Bool

structure Tokens where
  /-- `url.Parse` and `url.ParseQuery`: the first value of a parameter. -/
  param : (url name : String) → Except String (Option String)
  /-- `jwt.Parse` with the HMAC methods only. -/
  parse : (secret token : String) → Except TokenError Token
  toLower : String → String

def actionCableWelcomeMessage (sid : String) : String :=
  "\x7b\"type\":\"welcome\",\"sid\":\"" ++ sid ++ "\"\x7d"

def unauthorizedResponse : ConnectResult where
  status := .failure
  transmissions := ["\x7b\"type\":\"disconnect\"," ++
    "\"reason\":\"unauthorized\",\"reconnect\":false\x7d"]

def expiredResponse : ConnectResult where
  status := .failure
  transmissions := ["\x7b\"type\":\"disconnect\"," ++
    "\"reason\":\"token_expired\",\"reconnect\":false\x7d"]

/-- The token of a request, from its header or its URL; empty if there is none. -/
def rawToken (tokens : Tokens) (config : JWTConfig) (request : Request) : Except String String :=
  let headerName := tokens.toLower ("x-" ++ config.param)
  let header := (request.headers.bind fun headers => headers.lookup headerName).getD ""
  if header = "" then do
    let value ← tokens.param request.url config.param
    return value.getD ""
  else .ok header

/-- `JWTIdentifier.Identify`. -/
def jwtIdentify (tokens : Tokens) (config : JWTConfig) : Authenticate := fun sid request =>
  match rawToken tokens config request with
  | .error err => { err := some err }
  | .ok "" => if config.force then { res := some unauthorizedResponse } else {}
  | .ok token =>
    match tokens.parse config.secret token with
    | .error .expired => { res := some expiredResponse }
    | .error .invalid => { res := some unauthorizedResponse }
    | .ok ⟨some claims, true⟩ =>
      match claims.ext with
      | some ids =>
        { res := some { identifier := ids
                        transmissions := [actionCableWelcomeMessage sid]
                        status := .success } }
      | none => { err := some ("JWT token doesn\x27t contain identifiers: " ++ claims.shown) }
    -- `err` is `nil` here
    | .ok _ => {}

def publicIdentifiers (sid : String) : String := "\x7b\"sid\":\"" ++ sid ++ "\"\x7d"

/-- `PublicIdentifier.Identify`. -/
def publicIdentify : Authenticate := fun sid _ =>
  { res := some { identifier := publicIdentifiers sid
                  transmissions := [actionCableWelcomeMessage sid]
                  status := .success } }

/-- `IdentifierPipeline.Identify`: the first identifier that has an answer. -/
def pipeline : List Authenticate → Authenticate
  | [] => fun _ _ => {}
  | identifier :: identifiers => fun sid request =>
    let answer := identifier sid request
    if answer.err.isSome || answer.res.isSome then answer else pipeline identifiers sid request

/-- `IdentifiableController.Authenticate`. -/
def identifiable (controller identifier : Authenticate) : Authenticate := fun sid request =>
  let answer := identifier sid request
  match answer.err, answer.res with
  | some err, _ => { err := some err }
  | none, none => controller sid request
  | none, some res =>
    { res := some { res with cState := some (res.cState.getD ∅), disconnectInterest := -1 } }

structure Config where
  jwt : JWTConfig := {}
  skipAuth : Bool := false

/-- `Runner.newController`, without the routes. -/
def newController (tokens : Tokens) (config : Config) (controller : Authenticate) :
    Authenticate :=
  let ids := (if config.jwt.enabled then [jwtIdentify tokens config.jwt] else []) ++
    if config.skipAuth then [publicIdentify] else []
  match ids with
  | [] => controller
  | [identifier] => identifiable controller identifier
  | _ => identifiable controller (pipeline ids)

end AnyCable.Source.Identity
