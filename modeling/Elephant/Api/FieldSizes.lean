import Mathlib.Algebra.Order.Ring.Rat
import Mathlib.Data.Nat.Cast.Order.Ring
import Elephant.Api.Framing

/-! The sizes of the fields of a push (`api/app/v2/push.coffee`, `parsePushMessage`;
    `api/spdyhandler.coffee`, `serverPush`).

    The checks compare `value.length` with a limit, for whatever value has arrived:

        string    its code units                        checked
        array     its elements, however long they are   not checked
        object    its own member `length`, if any       not checked
        number, boolean   undefined, never larger       not checked

    `parsePushMessage_iff` says what is accepted. The main result says for exactly which accepted
    bodies the limits hold. -/

namespace Elephant.Api
open Elephant.Schemes
open Elephant.Push (HttpError)

/-! ### What is accepted -/

section

variable (N : NumberText) (urlParse : String → Except Throw (Option String))

/-- Neither credential is there, or both are, they are not too long, and the protocol is https. -/
inductive CredentialsAccepted (protocol : Option String) (username password : Option Json) : Prop
  | without (hu : Json.truthy username = false) (hp : Json.truthy password = false)
  | supplied (u p : Json) (hu : username = some u) (hp : password = some p)
      (htu : Json.truthy (some u) = true) (htp : Json.truthy (some p) = true)
      (https : protocol = some "https:") (hlu : Push.tooLong N u = .ok false)
      (hlp : Push.tooLong N p = .ok false)

/-- A url that parses to one of the two protocols, and credentials that are accepted with it. -/
structure CallbackAccepted (callback : Json) (url : String) (protocol : Option String) : Prop where
  has : field callback "url" = some (.str url)
  notEmpty : url ≠ ""
  parsed : urlParse url = .ok protocol
  known : protocol ∈ [some "http:", some "https:"]
  credentials : CredentialsAccepted N protocol (field callback "username") (field callback "password")

structure Accepted (body : Json) (params : Push.Params) : Prop where
  message : field body "message" = some params.message
  there : Json.truthy (some params.message) = true
  short : Push.tooLong N params.message = .ok false
  callback : (field body "callback").filter (Json.truthy ∘ some) = params.callback
  checked : ∀ c, params.callback = some c → ∃ url protocol, CallbackAccepted N urlParse c url protocol

end

section

variable {N : NumberText} {urlParse : String → Except Throw (Option String)}

theorem bind_eq_ok {ε α β : Type} {x : Except ε α} {f : α → Except ε β} {b : β} :
    (x >>= f) = .ok b ↔ ∃ a, x = .ok a ∧ f a = .ok b := by
  cases x with
  | error e => simp [bind, Except.bind]
  | ok a => simp [bind, Except.bind]

/-- A value that is not there. -/
theorem filter_truthy_none {x : Option Json} :
    x.filter (Json.truthy ∘ some) = none ↔ Json.truthy x = false := by
  cases x with
  | none => simp [Json.truthy]
  | some v => simp [Option.filter]

theorem eitherTooLong_eq_false {u p : Json} : Push.eitherTooLong N u p = .ok false ↔
    Push.tooLong N u = .ok false ∧ Push.tooLong N p = .ok false := by
  rw [Push.eitherTooLong, bind_eq_ok]
  constructor
  · rintro ⟨long, hu, h⟩
    cases long with
    | true => simp [pure, Except.pure] at h
    | false => exact ⟨hu, h⟩
  · rintro ⟨hu, hp⟩
    exact ⟨false, hu, hp⟩

theorem checkCredentials_iff {protocol : Option String} {username password : Option Json} :
    Push.checkCredentials N protocol username password = .ok (.ok ()) ↔
      CredentialsAccepted N protocol username password := by
  unfold Push.checkCredentials
  cases hu : username.filter (Json.truthy ∘ some) with
  | none =>
    have hun := filter_truthy_none.mp hu
    cases hp : password.filter (Json.truthy ∘ some) with
    | none => exact ⟨fun _ => .without hun (filter_truthy_none.mp hp), fun _ => rfl⟩
    | some p =>
      obtain ⟨rfl, htp⟩ := filter_truthy.mp hp
      refine ⟨fun h => by simp at h, ?_⟩
      rintro (⟨-, hpn⟩ | ⟨u, -, rfl, -, htu⟩)
      · rw [htp] at hpn; simp at hpn
      · rw [htu] at hun; simp at hun
  | some u =>
    obtain ⟨rfl, htu⟩ := filter_truthy.mp hu
    cases hp : password.filter (Json.truthy ∘ some) with
    | none =>
      have hpn := filter_truthy_none.mp hp
      refine ⟨fun h => by simp at h, ?_⟩
      rintro (⟨hun, -⟩ | ⟨-, p, -, rfl, -, htp⟩)
      · rw [htu] at hun; simp at hun
      · rw [htp] at hpn; simp at hpn
    | some p =>
      obtain ⟨rfl, htp⟩ := filter_truthy.mp hp
      dsimp only
      split_ifs with hs
      · refine ⟨fun h => by simp at h, ?_⟩
        rintro (⟨hun, -⟩ | ⟨_, _, _, _, _, _, hs', _, _⟩)
        · rw [htu] at hun; simp at hun
        · exact absurd hs' hs
      · rw [bind_eq_ok]
        constructor
        · rintro ⟨long, hlong, h⟩
          cases long with
          | true => simp [pure, Except.pure] at h
          | false =>
            obtain ⟨hlu, hlp⟩ := eitherTooLong_eq_false.mp hlong
            exact .supplied u p rfl rfl htu htp (not_not.mp hs) hlu hlp
        · rintro (⟨hun, -⟩ | ⟨_, _, ⟨⟩, ⟨⟩, _, _, _, hlu, hlp⟩)
          · rw [htu] at hun; simp at hun
          · exact ⟨false, eitherTooLong_eq_false.mpr ⟨hlu, hlp⟩, rfl⟩

theorem checkCallback_iff {callback : Json} (hc : callback ≠ .null) :
    Push.checkCallback N urlParse callback = .ok (.ok ()) ↔
      ∃ url protocol, CallbackAccepted N urlParse callback url protocol := by
  unfold Push.checkCallback
  rw [get_eq hc, get_eq hc, get_eq hc, bind_eq_ok]
  simp only [Except.ok.injEq, exists_eq_left']
  cases hurl : (field callback "url").filter (Json.truthy ∘ some) with
  | none =>
    have hno := filter_truthy_none.mp hurl
    refine ⟨fun h => by simp [pure, Except.pure] at h, ?_⟩
    rintro ⟨url, protocol, hacc⟩
    rw [hacc.has] at hno
    exact absurd hacc.notEmpty (by simpa [Json.truthy] using hno)
  | some v =>
    obtain ⟨hfield, htruthy⟩ := filter_truthy.mp hurl
    dsimp only
    rw [bind_eq_ok]
    constructor
    · rintro ⟨protocol, hparse, h⟩
      split_ifs at h with hknown
      · cases v with
        | str url =>
          exact ⟨url, protocol, hfield, by simpa [Json.truthy] using htruthy, hparse, hknown,
            checkCredentials_iff.mp h⟩
        | _ => simp [Push.parseUrl] at hparse
      · simp [pure, Except.pure] at h
    · rintro ⟨url, protocol, hacc⟩
      obtain rfl := Option.some.inj (hfield.symm.trans hacc.has)
      refine ⟨protocol, hacc.parsed, ?_⟩
      rw [if_neg (not_not.mpr hacc.known)]
      exact checkCredentials_iff.mpr hacc.credentials

/-- An accepted message is there and not too long. -/
theorem message_of_accepted {body : Json} {params : Push.Params} (hb : body ≠ .null)
    (h : Push.parsePushMessage N urlParse body = .ok (.ok params)) :
    ∃ m, field body "message" = some m ∧ Json.truthy (some m) = true ∧
      Push.tooLong N m = .ok false := by
  unfold Push.parsePushMessage at h
  rw [get_eq hb, bind_eq_ok] at h
  obtain ⟨_, ⟨⟩, h⟩ := h
  cases hm : (field body "message").filter (Json.truthy ∘ some) with
  | none => rw [hm] at h; simp [pure, Except.pure] at h
  | some m =>
    obtain ⟨hfield, htruthy⟩ := filter_truthy.mp hm
    rw [hm, bind_eq_ok] at h
    obtain ⟨long, hlong, h⟩ := h
    cases long with
    | true => simp [pure, Except.pure] at h
    | false => exact ⟨m, hfield, htruthy, hlong⟩

/-- After the message it is the callback that decides. -/
theorem parsePushMessage_eq {body m : Json} (hb : body ≠ .null)
    (hfield : field body "message" = some m) (htruthy : Json.truthy (some m) = true)
    (hshort : Push.tooLong N m = .ok false) :
    Push.parsePushMessage N urlParse body =
      match (field body "callback").filter (Json.truthy ∘ some) with
      | none => .ok (.ok ⟨m, none⟩)
      | some c => (Push.checkCallback N urlParse c).map (Except.map fun _ => ⟨m, some c⟩) := by
  unfold Push.parsePushMessage
  rw [get_eq hb, get_eq hb]
  simp only [bind, Except.bind, filter_truthy.mpr ⟨hfield, htruthy⟩, hshort]
  cases (field body "callback").filter (Json.truthy ∘ some) with
  | none => rfl
  | some c =>
    dsimp only
    rcases Push.checkCallback N urlParse c with _ | _ | _ <;> rfl

/-- Exactly these bodies are accepted, with these parameters. -/
theorem parsePushMessage_iff {body : Json} {params : Push.Params} (hb : body ≠ .null) :
    Push.parsePushMessage N urlParse body = .ok (.ok params) ↔ Accepted N urlParse body params := by
  constructor
  · intro h
    obtain ⟨m, hfield, htruthy, hshort⟩ := message_of_accepted hb h
    rw [parsePushMessage_eq hb hfield htruthy hshort] at h
    cases hc : (field body "callback").filter (Json.truthy ∘ some) with
    | none =>
      rw [hc] at h
      obtain rfl := Except.ok.inj (Except.ok.inj h)
      exact ⟨hfield, htruthy, hshort, hc, fun c h => by simp at h⟩
    | some c =>
      rw [hc] at h
      dsimp only at h
      rcases hresult : Push.checkCallback N urlParse c with t | e | _
      · rw [hresult] at h; simp [Except.map] at h
      · rw [hresult] at h; simp [Except.map] at h
      · rw [hresult] at h
        obtain rfl := Except.ok.inj (Except.ok.inj h)
        refine ⟨hfield, htruthy, hshort, hc, ?_⟩
        rintro _ ⟨⟩
        exact (checkCallback_iff (ne_null_of_truthy (filter_truthy.mp hc).2)).mp hresult
  · intro hacc
    rw [parsePushMessage_eq hb hacc.message hacc.there hacc.short, hacc.callback]
    obtain ⟨message, callback⟩ := params
    cases callback with
    | none => rfl
    | some c =>
      have hnull := ne_null_of_truthy (filter_truthy.mp hacc.callback).2
      have hok : Push.checkCallback N urlParse c = .ok (.ok ()) :=
        (checkCallback_iff hnull).mpr (hacc.checked c rfl)
      dsimp only
      rw [hok]
      rfl

end

/-! ### The limits -/

/-- At most `MAX_FIELD_SIZE` code units. -/
def Fits (s : String) : Prop := utf16Length s ≤ Push.MAX_FIELD_SIZE

/-- A bound for what is pushed, by the length of the request id. -/
def payloadBound (requestIdLength : ℕ) : ℕ := 27 + 6 * requestIdLength + 6 * Push.MAX_FIELD_SIZE

section

variable (N : NumberText) (urlParse : String → Except Throw (Option String))

/-- The limits hold: for the message, for credentials that are supplied, and for the payload of the
    push. -/
structure FieldsSound (params : Push.Params) : Prop where
  message : ∃ s, params.message = .str s ∧ Fits s
  credentials : ∀ c, params.callback = some c →
    Json.truthy (field c "username") = true ∨ Json.truthy (field c "password") = true →
    ∃ u p url, field c "username" = some (.str u) ∧ field c "password" = some (.str p) ∧
      u ≠ "" ∧ p ≠ "" ∧ Fits u ∧ Fits p ∧
      field c "url" = some (.str url) ∧ urlParse url = .ok (some "https:")
  payload : ∀ requestId, utf16Length (SpdyHandler.pushData N requestId params.message)
    ≤ payloadBound (utf16Length requestId)

/-- The message is a string, and so are credentials that are supplied. -/
structure StringsOnly (params : Push.Params) : Prop where
  message : ∃ s, params.message = .str s
  credentials : ∀ c, params.callback = some c → ∀ name ∈ ["username", "password"],
    Json.truthy (field c name) = true → ∃ s, field c name = some (.str s)

end

/-- The one type whose `length` is what the limit is about. -/
theorem tooLong_str (N : NumberText) (s : String) : Push.tooLong N (.str s) = .ok false ↔ Fits s := by
  have hlong : Push.tooLong N (.str s)
      = .ok (decide ((Push.MAX_FIELD_SIZE : ℚ) < (utf16Length s : ℚ))) := rfl
  rw [hlong, Except.ok.injEq, decide_eq_false_iff_not, Nat.cast_lt, Nat.not_lt]
  rfl

theorem pushData_toList (N : NumberText) (requestId : String) (data : Json) :
    (SpdyHandler.pushData N requestId data).toList
      = '\x7b' :: (quote "request_id" ++ ':' :: (quote requestId ++ ',' :: (quote "data" ++ ':' ::
        (data.write N ++ ['\x7d'])))) := by
  have hnames : propertyNames ["request_id", "data"] = ["request_id", "data"] := by decide
  have hwritten : properties [("request_id", quote requestId), ("data", data.write N)]
      = [quote "request_id" ++ ':' :: quote requestId, quote "data" ++ ':' :: data.write N] := by
    rw [properties, List.map_cons, List.map_cons, List.map_nil, hnames]
    rfl
  rw [SpdyHandler.pushData, Json.stringify, String.toList_ofList, Json.write, Json.writeMembers,
    Json.writeMembers, Json.writeMembers, Json.write, hwritten]
  simp [List.intercalate_cons_cons]

/-- The text around the request id and the message has 23 code units. -/
theorem utf16Length_pushData (N : NumberText) (requestId : String) (data : Json) :
    utf16Length (SpdyHandler.pushData N requestId data)
      = 23 + utf16Length (String.ofList (quote requestId)) + utf16Length (data.stringify N) := by
  have hid : utf16Length (String.ofList ('\x7b' :: (quote "request_id" ++ [':']))) = 14 := by decide
  have hdata : utf16Length (String.ofList (',' :: (quote "data" ++ [':']))) = 8 := by decide
  have hend : utf16Length (String.ofList ['\x7d']) = 1 := by decide
  have hparts : (SpdyHandler.pushData N requestId data).toList
      = ('\x7b' :: (quote "request_id" ++ [':'])) ++ (quote requestId ++
        ((',' :: (quote "data" ++ [':'])) ++ (data.write N ++ ['\x7d']))) := by
    rw [pushData_toList]; simp
  rw [← String.ofList_toList (s := SpdyHandler.pushData N requestId data), hparts, utf16Length_append,
    utf16Length_append, utf16Length_append, utf16Length_append, hid, hdata, hend, Json.stringify]
  omega

theorem payload_of_fits (N : NumberText) {s : String} (hs : Fits s) (requestId : String) :
    utf16Length (SpdyHandler.pushData N requestId (.str s)) ≤ payloadBound (utf16Length requestId) := by
  have hid := utf16Length_quote requestId
  have hmessage := utf16Length_quote s
  have hfits : utf16Length s ≤ Push.MAX_FIELD_SIZE := hs
  rw [utf16Length_pushData, payloadBound, Json.stringify, Json.write]
  omega

theorem truthy_str {s : String} : Json.truthy (some (.str s)) = true ↔ s ≠ "" := by
  simp [Json.truthy]

/-- Credentials that are supplied as strings. -/
theorem CallbackAccepted.credentials_sound {N : NumberText}
    {urlParse : String → Except Throw (Option String)} {c : Json} {url : String}
    {protocol : Option String} (h : CallbackAccepted N urlParse c url protocol)
    (hstr : ∀ name ∈ ["username", "password"], Json.truthy (field c name) = true →
      ∃ s, field c name = some (.str s))
    (hsupplied : Json.truthy (field c "username") = true ∨ Json.truthy (field c "password") = true) :
    ∃ u p url, field c "username" = some (.str u) ∧ field c "password" = some (.str p) ∧
      u ≠ "" ∧ p ≠ "" ∧ Fits u ∧ Fits p ∧
      field c "url" = some (.str url) ∧ urlParse url = .ok (some "https:") := by
  rcases h.credentials with ⟨hu, hp⟩ | ⟨u, p, hu, hp, htu, htp, https, hlu, hlp⟩
  · rw [hu, hp] at hsupplied; simp at hsupplied
  · obtain ⟨u, hu'⟩ := hstr "username" (by simp) (hu ▸ htu)
    obtain ⟨p, hp'⟩ := hstr "password" (by simp) (hp ▸ htp)
    obtain rfl := Option.some.inj (hu.symm.trans hu')
    obtain rfl := Option.some.inj (hp.symm.trans hp')
    exact ⟨u, p, url, hu, hp, truthy_str.mp htu, truthy_str.mp htp, (tooLong_str N u).mp hlu,
      (tooLong_str N p).mp hlp, h.has, https ▸ h.parsed⟩

theorem ne_null_of_accepted {N : NumberText} {urlParse : String → Except Throw (Option String)}
    {body : Json} {params : Push.Params}
    (h : Push.parsePushMessage N urlParse body = .ok (.ok params)) : body ≠ .null := by
  rintro rfl
  simp [Push.parsePushMessage, Json.get, bind, Except.bind] at h

/-- For every body that is accepted: the limits hold iff the message and the credentials are
    strings. -/
theorem fieldsSound_iff_stringsOnly (N : NumberText)
    (urlParse : String → Except Throw (Option String)) (body : Json) (params : Push.Params)
    (h : Push.parsePushMessage N urlParse body = .ok (.ok params)) :
    FieldsSound N urlParse params ↔ StringsOnly params := by
  have hacc := (parsePushMessage_iff (ne_null_of_accepted h)).mp h
  constructor
  · rintro ⟨⟨s, hs, -⟩, hcredentials, -⟩
    refine ⟨⟨s, hs⟩, fun c hc name hname htruthy => ?_⟩
    rcases List.mem_cons.mp hname with rfl | hname
    · obtain ⟨u, -, -, hu, -⟩ := hcredentials c hc (Or.inl htruthy)
      exact ⟨u, hu⟩
    · obtain rfl := List.mem_singleton.mp hname
      obtain ⟨-, p, -, -, hp, -⟩ := hcredentials c hc (Or.inr htruthy)
      exact ⟨p, hp⟩
  · rintro ⟨⟨s, hs⟩, hstr⟩
    have hfits : Fits s := (tooLong_str N s).mp (hs ▸ hacc.short)
    refine ⟨⟨s, hs, hfits⟩, fun c hc hsupplied => ?_, fun requestId => ?_⟩
    · obtain ⟨url, protocol, hcallback⟩ := hacc.checked c hc
      exact hcallback.credentials_sound (hstr c hc) hsupplied
    · rw [hs]; exact payload_of_fits N hfits requestId

/-- A push with a callback and credentials. -/
def stringPush : Json := .obj [("message", .str "hello"), ("callback", .obj
  [("url", .str "https://app/done"), ("username", .str "app"), ("password", .str "secret")])]

theorem fieldsSound_stringPush : ∃ params,
    Push.parsePushMessage ⟨fun _ => "", fun _ => .nan⟩ (fun _ => .ok (some "https:")) stringPush
      = .ok (.ok params) ∧
      FieldsSound ⟨fun _ => "", fun _ => .nan⟩ (fun _ => .ok (some "https:")) params := by
  refine ⟨_, rfl, (fieldsSound_iff_stringsOnly _ _ stringPush _ rfl).mpr ⟨⟨_, rfl⟩, ?_⟩⟩
  rintro _ ⟨⟩ name hname -
  rcases List.mem_cons.mp hname with rfl | hname
  · exact ⟨_, rfl⟩
  · obtain rfl := List.mem_singleton.mp hname
    exact ⟨_, rfl⟩

/-- An array of one string, as long as one likes. -/
theorem utf16Length_longElement (N : NumberText) (n : ℕ) :
    n ≤ utf16Length (Json.stringify N (.arr [.str (String.ofList (List.replicate n 'a'))])) := by
  have hescape : (List.replicate n 'a').flatMap escape = List.replicate n 'a' := by
    induction n with
    | zero => rfl
    | succ n ih => rw [List.replicate_succ, List.flatMap_cons, ih]; rfl
  have hlen := utf16Length_of_isAscii (isAscii_replicate (c := 'a') (by decide) n)
  rw [List.length_replicate] at hlen
  have hwrite : Json.write N (.arr [.str (String.ofList (List.replicate n 'a'))])
      = ['[', '"'] ++ (List.replicate n 'a' ++ ['"', ']']) := by
    simp [Json.write, Json.writeElems, quote, hescape]
  rw [Json.stringify, hwrite, utf16Length_append, utf16Length_append, hlen]
  omega

/-- A number is a message, and there is no bound for what an array makes of a payload. -/
theorem not_fieldsSound_numberArray : (∀ N, Push.tooLong N (.num (.fin 7)) = .ok false) ∧
    ∀ (N : NumberText) (urlParse : String → Except Throw (Option String)),
    Push.parsePushMessage N urlParse (.obj [("message", .num (.fin 7))])
        = .ok (.ok ⟨.num (.fin 7), none⟩) ∧
      ¬ FieldsSound N urlParse ⟨.num (.fin 7), none⟩ ∧
      ∀ n requestId, ∃ body params, Push.parsePushMessage N urlParse body = .ok (.ok params) ∧
        n < utf16Length (SpdyHandler.pushData N requestId params.message) := by
  refine ⟨fun _ => rfl, fun N urlParse => ⟨rfl, fun h => ?_, fun n requestId => ?_⟩⟩
  · obtain ⟨s, hs, -⟩ := h.message
    simp at hs
  · refine ⟨.obj [("message", .arr [.str (String.ofList (List.replicate n 'a'))])],
      ⟨.arr [.str (String.ofList (List.replicate n 'a'))], none⟩, rfl, ?_⟩
    have hlong := utf16Length_longElement N n
    rw [utf16Length_pushData]
    dsimp only
    omega

end Elephant.Api
