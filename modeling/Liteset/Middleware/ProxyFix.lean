import Liteset.Lib.PyText

/-!
# Forwarded headers

`ProxyFixMiddleware` of `middleware/proxy_fix.py`.  Header names and values are the
texts their bytes decode to in Latin-1.
-/

set_option autoImplicit false

namespace Liteset.Middleware.ProxyFix

open Liteset.Lib

inductive Forwarded where
  | xFor
  | xProto
  | xHost
  | xPort
  | xPrefix
  deriving DecidableEq

def Forwarded.name : Forwarded → String
  | .xFor => "x-forwarded-for"
  | .xProto => "x-forwarded-proto"
  | .xHost => "x-forwarded-host"
  | .xPort => "x-forwarded-port"
  | .xPrefix => "x-forwarded-prefix"

inductive ScopeType where
  | http
  | websocket
  | lifespan
  deriving DecidableEq

/-- The port of a server is `none` for a Unix socket. -/
structure Scope where
  type : ScopeType
  headers : List (String × String)
  client : Option (String × Int)
  scheme : String
  server : Option (String × Option Int)
  rootPath : String
  deriving DecidableEq

def parts (raw : String) : List String :=
  (raw.toList.splitOn ',').map fun value => PyText.strip PyText.isspace (String.ofList value)

/-- `value if value else None` -/
def nonblank (value : String) : Option String := if value = "" then none else some value

def getTrustedValue (raw : Option String) (numProxies : Nat) : Option String :=
  match raw with
  | none => none
  | some raw =>
    if raw = "" ∨ numProxies < 1 then none
    else if (parts raw).length < numProxies then none
    else
      nonblank (PyText.strip PyText.isspace
        ((parts raw).getD ((parts raw).length - numProxies) ""))

def lines (headers : List (String × String)) (name : String) : List String :=
  (headers.filter fun header => header.1 = name).map Prod.snd

/-- `headers.get(name)` after `headers.setdefault` for each header. -/
def headerOf (headers : List (String × String)) (name : String) : Option String :=
  (lines headers name).head?

/-- `str.lower` of a Latin-1 character. -/
def lowerChar (c : Char) : Char :=
  if c.isUpper ∨ (0xc0 ≤ c.toNat ∧ c.toNat ≤ 0xde ∧ c.toNat ≠ 0xd7) then Char.ofNat (c.toNat + 32)
  else c

def lower (text : String) : String := String.ofList (text.toList.map lowerChar)

/-- `rstrip("/")` -/
def rstripSlash (text : String) : String :=
  String.ofList ((text.toList.reverse.dropWhile (· = '/')).reverse)

def setClient (s : Scope) (forwardedFor : String) : Scope :=
  { s with client := some (forwardedFor, (s.client.map Prod.snd).getD 0) }

def setScheme (s : Scope) (forwardedProto : String) : Scope :=
  { s with scheme := lower forwardedProto }

def setHost (s : Scope) (forwardedHost : String) : Scope :=
  let replaced := s.headers.map fun header =>
    if header.1 = "host" then ("host", forwardedHost) else header
  { s with
    headers :=
      if s.headers.any (fun header => header.1 = "host") then replaced
      else replaced ++ [("host", forwardedHost)]
    server := s.server.map fun server =>
      (String.ofList (forwardedHost.toList.takeWhile (· ≠ ':')), server.2) }

/-- A port that `int` does not read is ignored. -/
def setPort (s : Scope) (forwardedPort : String) : Scope :=
  match PyText.parseInt forwardedPort with
  | none => s
  | some port => { s with server := some ((s.server.map Prod.fst).getD "", some port) }

def setRootPath (s : Scope) (forwardedPrefix : String) : Scope :=
  if rstripSlash forwardedPrefix = "" then s
  else { s with rootPath := rstripSlash forwardedPrefix }

def setWith (set : Scope → String → Scope) (value : Option String) (s : Scope) : Scope :=
  match value with
  | none => s
  | some value => set s value

def applied (value : Forwarded → Option String) (s : Scope) : Scope :=
  setWith setRootPath (value .xPrefix) (setWith setPort (value .xPort)
    (setWith setHost (value .xHost) (setWith setScheme (value .xProto)
      (setWith setClient (value .xFor) s))))

/-- The scope `ProxyFixMiddleware.handle` passes on; `hops` are the configured
`x_for`, …, `x_prefix`. -/
def handle (hops : Forwarded → Nat) (s : Scope) : Scope :=
  if s.type = .lifespan then s
  else applied (fun h => getTrustedValue (headerOf s.headers h.name) (hops h)) s

end Liteset.Middleware.ProxyFix
