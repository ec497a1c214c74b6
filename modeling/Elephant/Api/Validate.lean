import Elephant.Api.Body
import Elephant.Refresh.Counter

/-! The request checks that the handlers share (`common/validate.coffee`, `common/basicauth.coffee`,
    `config/config.coffee`).

    Each check is a task of some handler's waterfall and calls back once; here it is the result it
    calls back with. What a database call answered is an argument of the check that looks at it. -/

namespace Elephant.Api
open Elephant.Schemes Elephant.Model
open Elephant.Push (HttpError)

/-- What the handlers read of a request. Header names are in lower case, `minPingIntervalSec` has the
    values of that query parameter, and `pushId` comes from the route. -/
structure Request where
  method : String
  headers : PlainObject String
  isSpdy : Bool
  minPingIntervalSec : List String
  body : String
  pushId : PushId

/-- The configuration. `settings` are the values that are looked up by name; the credentials and the
    other compound values have fields of their own. -/
structure Config where
  settings : PlainObject Json
  AUTH : PlainObject String
  REGISTER_AUTH : PlainObject String
  SALT : String
  MIN_SOCKET_TIMEOUT_SEC : ℚ
  RETRY_POLICY : Json
  NODE_ENV : Option String

/-- `config[name]`, for a name that no object inherits. -/
def Config.getConfig (config : Config) (name : String) : Option Json := config.settings.lookup name

/-- The functions of the engine and of libraries that the code calls. -/
structure Library where
  numbers : NumberText
  urlParse : String → Except Throw (Option String)
  jsonParse : String → Except String Json
  base64Decode : String → String
  shaDigest : String → String
  aesEncrypt : Json → Except Throw String

/-- What a database call hands to its callback. -/
abbrev Answer (α : Type) := Except String α

/-- `text.indexOf(part) >= 0`. -/
def includesText (text part : String) : Bool := decide (part.toList <:+: text.toList)

/-- A header that is there and not empty. -/
def header (req : Request) (name : String) : Option String :=
  (req.headers.lookup name).filter (· ≠ "")

def internalDbError : HttpError := ⟨500, "internal DB error"⟩

/-! ### The expression `/Basic\s+(.+)/` -/

def isSpace (c : Char) : Bool :=
  c.toNat ∈ [0x09, 0x0a, 0x0b, 0x0c, 0x0d, 0x20, 0xa0, 0x1680, 0x2028, 0x2029, 0x202f, 0x205f, 0x3000,
    0xfeff] || (0x2000 ≤ c.toNat && c.toNat ≤ 0x200a)

def isLineEnd (c : Char) : Bool := c.toNat ∈ [0x0a, 0x0d, 0x2028, 0x2029]

/-- The group of `\s+(.+)` at the start of a text that begins with `n` white spaces: `\s+` takes all
    of them and gives back as many as `.+` needs to match. -/
def spacesThenGroup (text : List Char) : ℕ → Option (List Char)
  | 0 => none
  | n + 1 =>
    let group := (text.drop (n + 1)).takeWhile fun c => !isLineEnd c
    if group = [] then spacesThenGroup text n else some group

/-- The group of the leftmost match. -/
def execBasic : List Char → Option (List Char)
  | [] => none
  | c :: cs =>
    if "Basic".toList <+: c :: cs then
      let text := (c :: cs).drop 5
      (spacesThenGroup text (text.takeWhile isSpace).length).or (execBasic cs)
    else execBasic cs

/-! ### The checks -/

namespace Validate

variable (L : Library) (config : Config) (req : Request)

def isSpdy : Next Unit :=
  if Json.truthy (config.getConfig "FORCE_SPDY_CLIENT") && !req.isSpdy then
    .error ⟨400, "Server supports only SPDY clients"⟩
  else .ok ()

def isMethodSupported (methods : List String) : Next Unit :=
  if req.method ∈ methods then .ok ()
  else .error ⟨405, "Method '" ++ req.method ++ "' not supported, only " ++ ",".intercalate methods⟩

def isPost : Next Unit := isMethodSupported req ["POST"]
def isGet : Next Unit := isMethodSupported req ["GET"]

def isJson : Next Unit :=
  match header req "content-type" with
  | none => .error ⟨415, "content-type must be 'application/json'"⟩
  | some contentType =>
    if includesText contentType "application/json" then .ok ()
    else .error ⟨415, "content-type must be 'application/json'"⟩

def acceptsJson : Next Unit :=
  match header req "accept" with
  | none => .ok ()
  | some accept =>
    if includesText accept "application/json" then .ok ()
    else .error ⟨406, "must accept 'application/json'"⟩

def parseJson : Next Json :=
  match L.jsonParse req.body with
  | .ok body => .ok body
  | .error message => .error ⟨400, "Invalid json: " ++ message⟩

/-- `_parseBasicAuth`: the value of the header, not decoded. -/
def parseBasicAuth : Next String :=
  match header req "authorization" with
  | none => .error ⟨401, "missing authorization header"⟩
  | some auth =>
    match execBasic auth.toList with
    | none => .error ⟨401, "bad authorization header"⟩
    | some basicAuth => .ok (String.ofList basicAuth)

/-- The user and, if there is a colon, the password. -/
def decode (basicAuth : String) : String × Option String :=
  match (L.base64Decode basicAuth).toList.splitOn ':' with
  | [] => ("", none)
  | [user] => (String.ofList user, none)
  | user :: pass :: _ => (String.ofList user, some (String.ofList pass))

/-- `_validateBasicAuth`; what a user name inherits is no string. -/
def checkCredentials (credentials : PlainObject String) (basicAuth : String) : Next Unit :=
  let (user, pass) := decode L basicAuth
  match credentials.read user with
  | some (.own expected) =>
    if pass = some expected then .ok () else .error ⟨401, "bad credentials"⟩
  | _ => .error ⟨401, "bad credentials"⟩

def validateBasicAuth (credentials : PlainObject String) : Next Unit := do
  let basicAuth ← parseBasicAuth req
  checkCredentials L credentials basicAuth

def validateClientBasicAuth : Next Unit := validateBasicAuth L req config.REGISTER_AUTH
def validateAppBasicAuth : Next Unit := validateBasicAuth L req config.AUTH

/-- The client id is the value of the header as it stands. -/
def parseClientId : Next ClientId := parseBasicAuth req

/-- An id that the blacklist has a record of is refused. -/
def validateRevoked {α : Type} (revoked : HttpError) : Answer (Option α) → Next Unit
  | .error _ => .error internalDbError
  | .ok (some _) => .error revoked
  | .ok none => .ok ()

def validateRevokedClientId {α : Type} : Answer (Option α) → Next Unit :=
  validateRevoked ⟨403, "client id revoked"⟩

def validateRevokedPushId {α : Type} : Answer (Option α) → Next Unit :=
  validateRevoked ⟨410, "push id revoked"⟩

/-- `pushId` may be any value that came in a body. -/
def validatePushId (clientId : ClientId) (pushId : Json) : Answer ℕ → Next Unit
  | .error _ => .error internalDbError
  | .ok count =>
    match pushId with
    | .str p =>
      if p ≠ Refresh.generatePushId L.shaDigest config.SALT clientId count ∧
          config.NODE_ENV ≠ some "unit" then .error ⟨401, "invalid push id"⟩
      else .ok ()
    | _ =>
      if config.NODE_ENV ≠ some "unit" then .error ⟨401, "invalid push id"⟩ else .ok ()

end Validate

/-! ### Every refusal has an error status -/

/-- The statuses that HTTP has for errors. -/
def HttpFailure (e : HttpError) : Prop := 400 ≤ e.status

instance (e : HttpError) : Decidable (HttpFailure e) := inferInstanceAs (Decidable (_ ≤ _))

/-- A check that refuses with such a status only. -/
def Refusing {α : Type} (x : Next α) : Prop := ∀ e, x = .error e → HttpFailure e

theorem refusing_ok {α : Type} (a : α) : Refusing (.ok a : Next α) := by
  intro e he; simp at he

theorem refusing_error {α : Type} {e : HttpError} (h : HttpFailure e) :
    Refusing (.error e : Next α) := by
  rintro e' ⟨⟩; exact h

theorem refusing_bind {α β : Type} {x : Next α} {f : α → Next β} (hx : Refusing x)
    (hf : ∀ a, Refusing (f a)) : Refusing (x >>= f) := by
  cases x with
  | error e => exact refusing_error (hx e rfl)
  | ok a => exact hf a

namespace Validate

variable {L : Library} {config : Config} {req : Request}

theorem refusing_isSpdy : Refusing (isSpdy config req) := by
  unfold isSpdy
  split
  · exact refusing_error (by decide)
  · exact refusing_ok ()

theorem refusing_isMethodSupported (methods : List String) :
    Refusing (isMethodSupported req methods) := by
  unfold isMethodSupported
  split
  · exact refusing_ok ()
  · exact refusing_error (show 400 ≤ 405 by decide)

theorem refusing_isJson : Refusing (isJson req) := by
  unfold isJson
  split
  · exact refusing_error (by decide)
  · split
    · exact refusing_ok ()
    · exact refusing_error (by decide)

theorem refusing_acceptsJson : Refusing (acceptsJson req) := by
  unfold acceptsJson
  split
  · exact refusing_ok ()
  · split
    · exact refusing_ok ()
    · exact refusing_error (by decide)

theorem refusing_parseJson : Refusing (parseJson L req) := by
  unfold parseJson
  split
  · exact refusing_ok _
  · exact refusing_error (show 400 ≤ 400 by decide)

theorem refusing_parseBasicAuth : Refusing (parseBasicAuth req) := by
  unfold parseBasicAuth
  split
  · exact refusing_error (by decide)
  · split
    · exact refusing_error (by decide)
    · exact refusing_ok _

theorem refusing_validateBasicAuth (credentials : PlainObject String) :
    Refusing (validateBasicAuth L req credentials) := by
  refine refusing_bind refusing_parseBasicAuth fun basicAuth => ?_
  unfold checkCredentials
  dsimp only
  split
  · split
    · exact refusing_ok ()
    · exact refusing_error (by decide)
  · exact refusing_error (by decide)

theorem refusing_validateRevoked {α : Type} {revoked : HttpError} (h : HttpFailure revoked)
    (answer : Answer (Option α)) : Refusing (validateRevoked revoked answer) := by
  rcases answer with err | (_ | row)
  · exact refusing_error (by decide)
  · exact refusing_ok ()
  · exact refusing_error h

theorem refusing_validatePushId (clientId : ClientId) (pushId : Json) (answer : Answer ℕ) :
    Refusing (validatePushId L config clientId pushId answer) := by
  unfold validatePushId
  split
  · exact refusing_error (by decide)
  · split <;> split
    all_goals first | exact refusing_ok () | exact refusing_error (by decide)

end Validate

/-! ### The stages that read the body refuse with 400 -/

/-- A stage that may throw, and otherwise refuses with an error status only. -/
def RefusingOrThrowing {α : Type} (x : Except Throw (Next α)) : Prop :=
  ∀ e, x = .ok (.error e) → HttpFailure e

theorem refusingOrThrowing_next {α : Type} {x : Next α} (h : Refusing x) :
    RefusingOrThrowing (.ok x) := by
  intro e he; exact h e (Except.ok.inj he)

theorem refusingOrThrowing_bind {α β : Type} {x : Except Throw α} {f : α → Except Throw (Next β)}
    (hf : ∀ a, RefusingOrThrowing (f a)) : RefusingOrThrowing (x >>= f) := by
  cases x with
  | error t => intro e he; simp [bind, Except.bind] at he
  | ok a => exact hf a

theorem refusing_parseField {name message : String} (body : Json) :
    RefusingOrThrowing (parseField name message body) := by
  refine refusingOrThrowing_bind fun value => ?_
  split
  · exact refusingOrThrowing_next (refusing_error (show 400 ≤ 400 by decide))
  · exact refusingOrThrowing_next (refusing_ok _)

theorem refusing_validateJson (body : Json) : RefusingOrThrowing (Register.validateJson body) := by
  refine refusingOrThrowing_bind fun missing => ?_
  split
  · exact refusingOrThrowing_next (refusing_error (show 400 ≤ 400 by decide))
  · exact refusingOrThrowing_next (refusing_ok _)

section

variable (N : NumberText) (urlParse : String → Except Throw (Option String))

theorem refusing_checkCredentials (protocol : Option String) (username password : Option Json) :
    RefusingOrThrowing (Push.checkCredentials N protocol username password) := by
  unfold Push.checkCredentials
  split
  · exact refusingOrThrowing_next (refusing_ok _)
  · split
    · exact refusingOrThrowing_next (refusing_error (by decide))
    · refine refusingOrThrowing_bind fun long => ?_
      split
      · exact refusingOrThrowing_next (refusing_error (by decide))
      · exact refusingOrThrowing_next (refusing_ok _)
  · exact refusingOrThrowing_next (refusing_error (by decide))

theorem refusing_checkCallback (callback : Json) :
    RefusingOrThrowing (Push.checkCallback N urlParse callback) := by
  refine refusingOrThrowing_bind fun url => ?_
  split
  · exact refusingOrThrowing_next (refusing_error (by decide))
  · refine refusingOrThrowing_bind fun protocol => ?_
    split
    · exact refusingOrThrowing_next (refusing_error (by decide))
    · refine refusingOrThrowing_bind fun username => refusingOrThrowing_bind fun password => ?_
      exact refusing_checkCredentials N protocol username password

theorem refusing_parsePushMessage (body : Json) :
    RefusingOrThrowing (Push.parsePushMessage N urlParse body) := by
  refine refusingOrThrowing_bind fun message => ?_
  split
  · exact refusingOrThrowing_next (refusing_error (by decide))
  · refine refusingOrThrowing_bind fun long => ?_
    split
    · exact refusingOrThrowing_next (refusing_error (by decide))
    · refine refusingOrThrowing_bind fun callback => ?_
      split
      · exact refusingOrThrowing_next (refusing_ok _)
      · rename_i c _
        intro e he
        have hcallback := refusing_checkCallback N urlParse c
        rcases hc : Push.checkCallback N urlParse c with t | (e' | u)
        · simp [hc, bind, Except.bind] at he
        · simp only [hc, bind, Except.bind, pure, Except.pure, Except.ok.injEq,
            Except.error.injEq] at he
          exact he ▸ hcallback e' hc
        · simp [hc, bind, Except.bind, pure, Except.pure] at he

end

end Elephant.Api
