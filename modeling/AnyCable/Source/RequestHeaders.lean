import AnyCable.Lib.GoMap

/-!
# Headers of a request

Source: `ws/handler.go:71-95`, `server/cors.go`, `sse/handler.go:18-24`,
`server/request_info.go:96-120`, `server/headers_extractor.go`.

The list of allowed origins is matched twice: by `CheckOrigin` for WebSockets, by `WriteCORSHeaders`
for the rest. Both index the first byte of every element they look at, which panics if the element
is empty; such a call returns `none`. `CheckOrigin` looks at the elements up to the first match,
`WriteCORSHeaders` at all of them.

`url.Parse` and the lower case of a character are parameters. Texts are lists of characters.
-/

set_option autoImplicit false

namespace AnyCable.Source.RequestHeaders
open AnyCable.Lib

structure Web where
  /-- `unicode.ToLower`, which `strings.ToLower` applies to every character. -/
  lower : Char → Char
  /-- The `Host` that `url.Parse` finds, unless it fails. -/
  parseHost : List Char → Option (List Char)
  lower_comma : ∀ c, lower c = ',' ↔ c = ','

/-- `strings.ToLower`. -/
def Web.toLower (web : Web) (text : List Char) : List Char := text.map web.lower

/-! ### Allowed origins -/

/-- The two tests in the body of either loop. -/
def hostMatches (urlHost : List Char) : List Char → Option Bool
  | [] => none
  | first :: rest =>
    some ((first = '*' && rest.isSuffixOf urlHost) || urlHost = first :: rest)

def anyMatches (urlHost : List Char) : List (List Char) → Option Bool
  | [] => some false
  | host :: hosts => do
    if ← hostMatches urlHost host then return true
    anyMatches urlHost hosts

def checkOrigin (web : Web) (origins origin : List Char) : Option Bool :=
  if origins = [] then some true
  else
    let hosts := (web.toLower origins).splitOn ','
    match web.parseHost (web.toLower origin) with
    | none => some false
    | some urlHost => anyMatches urlHost hosts

abbrev Headers := GoMap String (List Char)

def allowOriginHeader : String := "Access-Control-Allow-Origin"

def allowOrigin (urlHost origin : List Char) : List (List Char) → Headers → Option Headers
  | [], h => some h
  | host :: hosts, h => do
    let matched ← hostMatches urlHost host
    allowOrigin urlHost origin hosts (if matched then h.insert allowOriginHeader origin else h)

/-- The part of `WriteCORSHeaders` that depends on the request. -/
def writeAllowOrigin (web : Web) (h : Headers) (origin : List Char) (origins : List (List Char)) :
    Option Headers :=
  if origins = [] then some (h.insert allowOriginHeader ['*'])
  else
    let origin := web.toLower origin
    match web.parseHost origin with
    | none => some h
    | some urlHost => allowOrigin urlHost origin origins h

def writeCORSHeaders (web : Web) (h : Headers) (origin : List Char) (origins : List (List Char)) :
    Option Headers := do
  let h ← writeAllowOrigin web h origin origins
  let h := h.insert "Access-Control-Allow-Methods" "POST, OPTIONS".toList
  let h := h.insert "Access-Control-Allow-Credentials" "true".toList
  return h.insert "Access-Control-Allow-Headers" ("Origin, X-Requested-With, X-Request-ID, " ++
    "Content-Type, Accept, X-CSRF-Token, Authorization").toList

/-- The list that `SSEHandler` passes on. -/
def allowedHosts (allowedOrigins : List Char) : List (List Char) :=
  if allowedOrigins = [] then [] else allowedOrigins.splitOn ','

/-! ### Cookies -/

/-- The body of the loop of `parseCookies`. -/
def keepCookie (filter : List (List Char)) (cookie : List Char) : Bool :=
  match cookie.splitOn '=' with
  | [name, _] => decide (name ∈ filter)
  | _ => false

def parseCookies (value : List Char) (cookieFilter : List (List Char)) : List Char :=
  if cookieFilter = [] then value
  else (value.splitOn ';').foldl
    (fun result cookie => if keepCookie cookieFilter cookie then result ++ cookie ++ [';'] else result)
    []

/-- `FromRequest` without the address of the peer: the headers asked for that are not empty. -/
def fromRequest (web : Web) (headers : List String) (cookies : List (List Char))
    (get : String → List Char) : Headers :=
  headers.foldl (fun res header =>
    let value := get header
    let value := if web.toLower header.toList = "cookie".toList then parseCookies value cookies
      else value
    if value ≠ [] then res.insert header value else res) ∅

end AnyCable.Source.RequestHeaders
