import Elephant.Push.World
import Elephant.Schemes.Json

/-! The stages that read a parsed request body.

    Any JSON value can arrive. A stage passes control on with success or an HTTP error, or it throws,
    and a throw ends the process. `Except Throw` around the result of `next` keeps the two apart. The
    main result says for exactly which bodies none of the four stages throws. -/

namespace Elephant.Api
open Elephant.Schemes
open Elephant.Push (HttpError)

/-- What a stage hands to `next`. -/
abbrev Next (α : Type) := Except HttpError α

/-! ### `api/v2/ack.coffee`, `api/v2/refresh.coffee`, `api/v2/register.coffee` -/

/-- A field of the body that must be there. -/
def parseField (name message : String) (body : Json) : Except Throw (Next (Option Json)) := do
  let value ← body.get name
  if !Json.truthy value then return .error ⟨400, message⟩
  return .ok value

def Ack.parseRequestId : Json → Except Throw (Next (Option Json)) :=
  parseField "request_id" "missing request_id parameter"

def Refresh.parsePushId : Json → Except Throw (Next (Option Json)) :=
  parseField "push_id" "missing push_id"

def Register.METADATA_KEYS : List String :=
  ["buildVersion", "fingerprint", "model", "network", "osVersion", "releaseVersion"]

/-- `keys.filter (key) -> not body.hasOwnProperty(key)`. -/
def Register.missingKeys (body : Json) : List String → Except Throw (List String)
  | [] => .ok []
  | key :: keys => do
    let present ← body.hasOwnProperty key
    let rest ← missingKeys body keys
    return if present then rest else key :: rest

def Register.validateJson (body : Json) : Except Throw (Next Unit) := do
  let missing ← missingKeys body METADATA_KEYS
  if missing.length > 0 then return .error ⟨400, "missing " ++ ",".intercalate missing⟩
  return .ok ()

/-! ### `api/app/v2/push.coffee` -/

namespace Push

def MAX_FIELD_SIZE : ℕ := 1024

/-- What `parsePushMessage` leaves in `req.params`. -/
structure Params where
  message : Json
  callback : Option Json

section

variable (N : NumberText) (urlParse : String → Except Throw (Option String))

/-- `value.length > MAX_FIELD_SIZE`. -/
def tooLong (value : Json) : Except Throw Bool := do
  let length ← value.get "length"
  Json.gt N length MAX_FIELD_SIZE

/-- The `protocol` of `url.parse url`, which throws on what is not a string. -/
def parseUrl : Json → Except Throw (Option String)
  | .str url => urlParse url
  | _ => .error .typeError

/-- `username.length > MAX_FIELD_SIZE or password.length > MAX_FIELD_SIZE`. -/
def eitherTooLong (username password : Json) : Except Throw Bool := do
  if ← tooLong N username then return true
  tooLong N password

/-- The check of `username` and `password`. -/
def checkCredentials (protocol : Option String) (username password : Option Json) :
    Except Throw (Next Unit) :=
  match username.filter (Json.truthy ∘ some), password.filter (Json.truthy ∘ some) with
  | none, none => .ok (.ok ())
  | some u, some p =>
    if protocol ≠ some "https:" then
      .ok (.error ⟨400, "callback url must be HTTPS with username/password"⟩)
    else do
      if ← eitherTooLong N u p then
        return .error ⟨400, "callback 'username' or 'password' fields too long (>1024)"⟩
      return .ok ()
  | _, _ => .ok (.error ⟨400, "callback 'username' or 'password' is missing"⟩)

def checkCallback (callback : Json) : Except Throw (Next Unit) := do
  let url ← callback.get "url"
  match url.filter (Json.truthy ∘ some) with
  | none => return .error ⟨400, "callback 'url' field is missing"⟩
  | some url =>
    let protocol ← parseUrl urlParse url
    if protocol ∉ [some "http:", some "https:"] then return .error ⟨400, "malformed callback url"⟩
    let username ← callback.get "username"
    let password ← callback.get "password"
    checkCredentials N protocol username password

def parsePushMessage (body : Json) : Except Throw (Next Params) := do
  let message ← body.get "message"
  match message.filter (Json.truthy ∘ some) with
  | none => return .error ⟨400, "'message' field is missing"⟩
  | some message =>
    if ← tooLong N message then return .error ⟨400, "'message' field too long (>1024)"⟩
    let callback ← body.get "callback"
    match callback.filter (Json.truthy ∘ some) with
    | none => return .ok ⟨message, none⟩
    | some callback =>
      match ← checkCallback N urlParse callback with
      | .error e => return .error e
      | .ok () => return .ok ⟨message, some callback⟩

end

end Push

/-! ### Shapes -/

section

variable (N : NumberText) (urlParse : String → Except Throw (Option String))

/-- The property of a value that is not `null`. -/
def field (v : Json) (k : String) : Option Json := (v.get k).toOption.join

/-- An own `length`, if there is one, can be compared with a number. -/
def LengthOk (v : Json) : Prop :=
  ∀ members, v = .obj members → ∀ w, Json.own members "length" = some w → w.convertible = true

def CredentialsOk (protocol : Option String) (username password : Option Json) : Prop :=
  protocol = some "https:" → ∀ u p, username = some u → password = some p →
    Json.truthy username = true → Json.truthy password = true →
    LengthOk u ∧ (Push.tooLong N u = .ok false → LengthOk p)

/-- A url that is there is a string that `url.parse` takes, and credentials that are looked at have
    lengths that can be compared. -/
def CallbackOk (callback : Json) : Prop :=
  ∀ url, field callback "url" = some url → Json.truthy (some url) = true →
    ∃ text protocol, url = .str text ∧ urlParse text = .ok protocol ∧
      (protocol ∈ [some "http:", some "https:"] →
        CredentialsOk N protocol (field callback "username") (field callback "password"))

/-- The bodies that no stage throws on. -/
structure WellShaped (body : Json) : Prop where
  notNull : body ≠ .null
  unshadowed : ∀ members, body = .obj members → Json.own members "hasOwnProperty" = none
  message : ∀ m, field body "message" = some m → Json.truthy (some m) = true → LengthOk m
  callback : ∀ m c, field body "message" = some m → Json.truthy (some m) = true →
    Push.tooLong N m = .ok false → field body "callback" = some c →
    Json.truthy (some c) = true → CallbackOk N urlParse c

/-- All four stages pass control on. -/
structure NoThrow (body : Json) : Prop where
  ack : (Ack.parseRequestId body).isOk = true
  refresh : (Refresh.parsePushId body).isOk = true
  register : (Register.validateJson body).isOk = true
  push : (Push.parsePushMessage N urlParse body).isOk = true

end

/-! ### When a stage throws -/

section

variable {N : NumberText} {urlParse : String → Except Throw (Option String)} {v body : Json}

theorem get_eq (hv : v ≠ .null) (k : String) : v.get k = .ok (field v k) := by
  cases v <;> simp_all [field, Json.get, Except.toOption]

theorem ne_null_of_truthy (h : Json.truthy (some v) = true) : v ≠ .null := by
  rintro rfl; simp [Json.truthy] at h

/-- Reading a required field throws on `null` only. -/
theorem parseField_isOk {name message : String} :
    (parseField name message body).isOk = true ↔ body ≠ .null := by
  rw [parseField, isOk_bind, ← Json.get_isOk (k := name), isOk_iff]
  refine exists_congr fun value => and_iff_left ?_
  split <;> rfl

theorem missingKeys_isOk (h : ∀ key, (body.hasOwnProperty key).isOk = true) :
    ∀ keys, (Register.missingKeys body keys).isOk = true
  | [] => rfl
  | key :: keys => by
      obtain ⟨present, hp⟩ := isOk_iff.mp (h key)
      obtain ⟨rest, hr⟩ := isOk_iff.mp (missingKeys_isOk h keys)
      rw [Register.missingKeys, hp, hr]; rfl

theorem validateJson_isOk : (Register.validateJson body).isOk = true ↔
    body ≠ .null ∧ ∀ members, body = .obj members → Json.own members "hasOwnProperty" = none := by
  have hkey (key : String) : (body.hasOwnProperty key).isOk = true ↔
      body ≠ .null ∧ ∀ members, body = .obj members → Json.own members "hasOwnProperty" = none := by
    cases body with
    | obj members =>
      simp only [Json.hasOwnProperty]
      cases h : Json.own members "hasOwnProperty" <;> simp [h, Except.isOk, Except.toBool]
    | _ => simp [Json.hasOwnProperty, Except.isOk, Except.toBool]
  rw [Register.validateJson, isOk_bind]
  constructor
  · rintro ⟨missing, hm, -⟩
    rw [← hkey "buildVersion"]
    rw [Register.METADATA_KEYS, Register.missingKeys] at hm
    exact isOk_iff.mpr ((isOk_bind.mp (isOk_iff.mpr ⟨_, hm⟩)).imp fun _ h => h.1)
  · intro h
    obtain ⟨missing, hm⟩ := isOk_iff.mp (missingKeys_isOk (fun key => (hkey key).mpr h)
      Register.METADATA_KEYS)
    refine ⟨missing, hm, ?_⟩
    split <;> rfl

theorem tooLong_isOk (hv : v ≠ .null) : (Push.tooLong N v).isOk = true ↔ LengthOk v := by
  rw [Push.tooLong, get_eq hv, isOk_bind]
  simp only [Except.ok.injEq, exists_eq_left', Json.gt_isOk, LengthOk]
  cases v <;> simp [field, Json.get, Except.toOption, Json.convertible]

theorem eitherTooLong_isOk {u p : Json} (hu : u ≠ .null) (hp : p ≠ .null) :
    (Push.eitherTooLong N u p).isOk = true ↔
      LengthOk u ∧ (Push.tooLong N u = .ok false → LengthOk p) := by
  rw [Push.eitherTooLong, isOk_bind, ← tooLong_isOk (N := N) hu, ← tooLong_isOk (N := N) hp]
  cases h : Push.tooLong N u with
  | error e => simp [Except.isOk, Except.toBool]
  | ok long => cases long <;> simp [Except.isOk, Except.toBool, pure, Except.pure]

/-- A value that is there, in the sense of JavaScript. -/
theorem filter_truthy {x : Option Json} {y : Json} :
    x.filter (Json.truthy ∘ some) = some y ↔ x = some y ∧ Json.truthy (some y) = true := by
  rw [Option.filter_eq_some_iff]; rfl

theorem checkCredentials_isOk {protocol : Option String} {username password : Option Json} :
    (Push.checkCredentials N protocol username password).isOk = true ↔
      CredentialsOk N protocol username password := by
  unfold Push.checkCredentials CredentialsOk
  cases hu : username.filter (Json.truthy ∘ some) with
  | none =>
    refine ⟨fun _ _ u p hu' _ htu => ?_, fun _ => ?_⟩
    · subst hu'
      rw [filter_truthy.mpr ⟨rfl, htu⟩] at hu; simp at hu
    · cases password.filter (Json.truthy ∘ some) <;> rfl
  | some u =>
    obtain ⟨rfl, htu⟩ := filter_truthy.mp hu
    cases hp : password.filter (Json.truthy ∘ some) with
    | none =>
      refine ⟨fun _ _ _ p _ hp' _ htp => ?_, fun _ => rfl⟩
      subst hp'
      rw [filter_truthy.mpr ⟨rfl, htp⟩] at hp; simp at hp
    | some p =>
      obtain ⟨rfl, htp⟩ := filter_truthy.mp hp
      have heither := eitherTooLong_isOk (N := N) (ne_null_of_truthy htu) (ne_null_of_truthy htp)
      by_cases hs : protocol = some "https:"
      · simp only [hs, ne_eq, not_true_eq_false, if_false, isOk_bind]
        rw [isOk_iff] at heither
        have hrest : ∀ long : Bool, (if long then
            pure (.error ⟨400, "callback 'username' or 'password' fields too long (>1024)"⟩)
            else pure (.ok ()) : Except Throw (Next Unit)).isOk = true := by
          intro long; cases long <;> rfl
        simp only [hrest, and_true, heither]
        refine ⟨fun h _ a b ha hb _ _ => ?_, fun h => h trivial u p rfl rfl htu htp⟩
        obtain rfl := Option.some.inj ha
        obtain rfl := Option.some.inj hb
        exact h
      · simp only [ne_eq, hs, not_false_eq_true, if_true, false_implies, iff_true]; rfl

theorem checkCallback_isOk {callback : Json} (hc : callback ≠ .null) :
    (Push.checkCallback N urlParse callback).isOk = true ↔ CallbackOk N urlParse callback := by
  unfold Push.checkCallback CallbackOk
  rw [get_eq hc, get_eq hc, get_eq hc, isOk_bind]
  simp only [Except.ok.injEq, exists_eq_left']
  cases hurl : (field callback "url").filter (Json.truthy ∘ some) with
  | none =>
    refine ⟨fun _ url hu ht => ?_, fun _ => rfl⟩
    rw [filter_truthy.mpr ⟨hu, ht⟩] at hurl; simp at hurl
  | some url =>
    obtain ⟨hfield, ht⟩ := filter_truthy.mp hurl
    have hall : (∀ u, field callback "url" = some u → Json.truthy (some u) = true →
        ∃ text protocol, u = .str text ∧ urlParse text = .ok protocol ∧
          (protocol ∈ [some "http:", some "https:"] →
            CredentialsOk N protocol (field callback "username") (field callback "password"))) ↔
        ∃ text protocol, url = .str text ∧ urlParse text = .ok protocol ∧
          (protocol ∈ [some "http:", some "https:"] →
            CredentialsOk N protocol (field callback "username") (field callback "password")) :=
      ⟨fun h => h url hfield ht, fun h u hu _ => Option.some.inj (hfield.symm.trans hu) ▸ h⟩
    rw [hall, isOk_bind]
    have hrest (protocol : Option String) :
        (if protocol ∉ [some "http:", some "https:"] then
            pure (.error ⟨400, "malformed callback url"⟩)
          else do
            let username ← (.ok (field callback "username") : Except Throw (Option Json))
            let password ← (.ok (field callback "password") : Except Throw (Option Json))
            Push.checkCredentials N protocol username password : Except Throw (Next Unit)).isOk
          = true ↔ (protocol ∈ [some "http:", some "https:"] →
            CredentialsOk N protocol (field callback "username") (field callback "password")) := by
      by_cases hp : protocol ∈ [some "http:", some "https:"]
      · rw [if_neg (not_not.mpr hp), ← checkCredentials_isOk]
        exact ⟨fun h _ => h, fun h => h hp⟩
      · rw [if_pos hp]
        exact ⟨fun _ h => absurd h hp, fun _ => rfl⟩
    constructor
    · rintro ⟨protocol, hparse, hok⟩
      cases url with
      | str text => exact ⟨text, protocol, rfl, hparse, (hrest protocol).mp hok⟩
      | _ => simp [Push.parseUrl] at hparse
    · rintro ⟨text, protocol, rfl, hparse, hok⟩
      exact ⟨protocol, hparse, (hrest protocol).mpr hok⟩

theorem parsePushMessage_isOk (hb : body ≠ .null) :
    (Push.parsePushMessage N urlParse body).isOk = true ↔
      (∀ m, field body "message" = some m → Json.truthy (some m) = true → LengthOk m) ∧
      ∀ m c, field body "message" = some m → Json.truthy (some m) = true →
        Push.tooLong N m = .ok false → field body "callback" = some c →
        Json.truthy (some c) = true → CallbackOk N urlParse c := by
  unfold Push.parsePushMessage
  rw [get_eq hb, get_eq hb, isOk_bind]
  simp only [Except.ok.injEq, exists_eq_left']
  cases hm : (field body "message").filter (Json.truthy ∘ some) with
  | none =>
    have hno : ∀ m, field body "message" = some m → ¬ Json.truthy (some m) = true := by
      intro m hf ht
      rw [filter_truthy.mpr ⟨hf, ht⟩] at hm; simp at hm
    exact ⟨fun _ => ⟨fun m hf ht => absurd ht (hno m hf), fun m _ hf ht => absurd ht (hno m hf)⟩,
      fun _ => rfl⟩
  | some m =>
    obtain ⟨hfield, ht⟩ := filter_truthy.mp hm
    have hone : ∀ m', field body "message" = some m' → m' = m := fun m' hf =>
      Option.some.inj (hf.symm.trans hfield)
    rw [isOk_bind]
    constructor
    · rintro ⟨long, hlong, hok⟩
      refine ⟨fun m' hf _ => ?_, fun m' c hf _ hshort hc htc => ?_⟩
      · rw [hone m' hf, ← tooLong_isOk (N := N) (ne_null_of_truthy ht), hlong]; rfl
      · rw [hone m' hf, hlong, Except.ok.injEq] at hshort; subst hshort
        rw [if_neg (by simp), isOk_bind] at hok
        obtain ⟨cb, hcb, hok⟩ := hok
        obtain rfl := Except.ok.inj hcb
        rw [filter_truthy.mpr ⟨hc, htc⟩, isOk_bind] at hok
        obtain ⟨result, hresult, -⟩ := hok
        exact (checkCallback_isOk (ne_null_of_truthy htc)).mp (isOk_iff.mpr ⟨_, hresult⟩)
    · rintro ⟨hlen, hcb⟩
      obtain ⟨long, hlong⟩ := isOk_iff.mp
        ((tooLong_isOk (N := N) (ne_null_of_truthy ht)).mpr (hlen m hfield ht))
      refine ⟨long, hlong, ?_⟩
      cases long with
      | true => rfl
      | false =>
        rw [if_neg (by simp), isOk_bind]
        refine ⟨_, rfl, ?_⟩
        cases hc : (field body "callback").filter (Json.truthy ∘ some) with
        | none => rfl
        | some c =>
          obtain ⟨hf, htc⟩ := filter_truthy.mp hc
          have hok := (checkCallback_isOk (ne_null_of_truthy htc)).mpr
            (hcb m c hfield ht hlong hf htc)
          obtain ⟨result, hresult⟩ := isOk_iff.mp hok
          rw [isOk_bind]
          refine ⟨result, hresult, ?_⟩
          cases result <;> rfl

end

/-- For every body, engine and `url.parse`: the stages all pass control on iff the body is well
    shaped. -/
theorem noThrow_iff_wellShaped (N : NumberText) (urlParse : String → Except Throw (Option String))
    (body : Json) : NoThrow N urlParse body ↔ WellShaped N urlParse body := by
  constructor
  · rintro ⟨hack, -, hreg, hpush⟩
    have hb := parseField_isOk.mp hack
    obtain ⟨hm, hc⟩ := (parsePushMessage_isOk hb).mp hpush
    exact ⟨hb, (validateJson_isOk.mp hreg).2, hm, hc⟩
  · rintro ⟨hb, hown, hm, hc⟩
    exact ⟨parseField_isOk.mpr hb, parseField_isOk.mpr hb, validateJson_isOk.mpr ⟨hb, hown⟩,
      (parsePushMessage_isOk hb).mpr ⟨hm, hc⟩⟩

/-- `null`, a body that shadows `hasOwnProperty`, and a callback url that is a number. -/
theorem throws_nullShadowedNumber :
    Ack.parseRequestId .null = .error .typeError ∧
      Refresh.parsePushId .null = .error .typeError ∧
      Register.validateJson (.obj [("hasOwnProperty", .bool true)]) = .error .typeError ∧
      ∀ (N : NumberText) (urlParse : String → Except Throw (Option String)),
        ¬ NoThrow N urlParse .null ∧ Push.parsePushMessage N urlParse
          (.obj [("message", .bool true), ("callback", .obj [("url", .num (.fin 1))])])
            = .error .typeError := by
  refine ⟨rfl, rfl, rfl, fun N urlParse => ⟨fun h => ?_, rfl⟩⟩
  exact absurd h.ack (by decide)

end Elephant.Api
