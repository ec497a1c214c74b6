import Mathlib.Data.List.TakeWhile
import Elephant.Api.Validate
import Elephant.Schemes.Base64
import Elephant.Schemes.Utf8

/-! Basic authentication (`common/basicauth.coffee`, `common/validate.coffee`, `config/basicauth.js`).

    A client sends its user name and its password in one text with a colon between them, in base64.
    The decoder splits that text at every colon, and the check looks at the first two pieces only:

        u, p ──encode──▶ base64 "u:p" ──decode──▶ [u, p₀, p₁, …]   with p = p₀:p₁:…
                                                      ╰── compared with the password of u

    The main result says for exactly which passwords this is the password that was sent. -/

namespace Elephant.Api
open Elephant.Schemes
open Elephant.Push (HttpError)

namespace BasicAuth

/-- `new Buffer(text).toString('base64')`. -/
def toBase64 (text : String) : String := String.ofList (Base64.encode (Utf8.encode text.toList))

def encode (username password : String) : String := toBase64 (username ++ ":" ++ password)

def decode (L : Library) (basicAuth : String) : List String :=
  ((L.base64Decode basicAuth).toList.splitOn ':').map String.ofList

/-- Reading base64 as a text undoes writing it. -/
def RoundTrips (L : Library) : Prop := ∀ text, L.base64Decode (toBase64 text) = text

end BasicAuth

/-- A request with this user name and password passes iff they are in the table. -/
def AuthenticatesExactly (L : Library) (credentials : PlainObject String) (u p : String) : Prop :=
  ∀ req : Request, req.headers.lookup "authorization" = some ("Basic " ++ BasicAuth.encode u p) →
    (Validate.validateBasicAuth L req credentials = .ok () ↔ credentials.lookup u = some p)

/-- What is left of a password at its first colon. -/
def beforeColon (p : String) : String := String.ofList (p.toList.takeWhile (· ≠ ':'))

/-! ### The pieces -/

theorem takeWhile_colon {text : List Char} : text.takeWhile (· ≠ ':') = text ↔ ':' ∉ text := by
  rw [List.takeWhile_eq_self_iff]
  constructor
  · intro h hmem; simpa using h ':' hmem
  · rintro h c hc
    exact decide_eq_true fun heq => h (heq ▸ hc)

theorem beforeColon_eq_self {p : String} : beforeColon p = p ↔ ':' ∉ p.toList := by
  rw [← takeWhile_colon, ← String.ofList_inj, String.ofList_toList]
  rfl

/-- The first piece ends at the first colon, and is the only one iff there is none. -/
theorem splitOn_colon (text : List Char) : ∃ rest,
    text.splitOn ':' = text.takeWhile (· ≠ ':') :: rest ∧ (rest = [] ↔ ':' ∉ text) := by
  by_cases h : ':' ∈ text
  · obtain ⟨as, bs, rfl, has⟩ := List.eq_append_cons_of_mem h
    refine ⟨bs.splitOn ':', ?_, iff_of_false (List.splitOn_ne_nil _ _) (not_not.mpr h)⟩
    have hfirst : (as ++ ':' :: bs).takeWhile (· ≠ ':') = as := by
      rw [List.takeWhile_append, if_pos (by rw [takeWhile_colon.mpr has])]
      simp
    rw [List.splitOn_append_cons_self_of_not_mem has, hfirst]
  · exact ⟨[], by rw [List.splitOn_eq_singleton h, takeWhile_colon.mpr h], iff_of_true rfl h⟩

namespace BasicAuth

variable {L : Library} {u p : String}

/-- The user name, the password up to its first colon, and what is after it. -/
theorem decode_encode (hL : RoundTrips L) (hu : ':' ∉ u.toList) : ∃ rest,
    decode L (encode u p) = u :: beforeColon p :: rest ∧ (rest = [] ↔ ':' ∉ p.toList) := by
  have htext : (u ++ ":" ++ p).toList = u.toList ++ ':' :: p.toList := by
    rw [String.toList_append, String.toList_append, List.append_assoc]; rfl
  obtain ⟨rest, hsplit, hrest⟩ := splitOn_colon p.toList
  refine ⟨rest.map String.ofList, ?_, by rw [List.map_eq_nil_iff, hrest]⟩
  rw [decode, encode, hL, htext, List.splitOn_append_cons_self_of_not_mem hu, hsplit, List.map_cons,
    List.map_cons, String.ofList_toList]
  rfl

/-- The check takes the first two pieces. -/
theorem validate_decode (L : Library) (basicAuth : String) :
    Validate.decode L basicAuth = ((decode L basicAuth).headD "", (decode L basicAuth)[1]?) := by
  unfold Validate.decode decode
  rcases (L.base64Decode basicAuth).toList.splitOn ':' with _ | ⟨user, _ | ⟨pass, rest⟩⟩ <;> rfl

/-! ### The header -/

theorem isSpace_of_visible {c : Char} (h : 0x2B ≤ c.toNat ∧ c.toNat ≤ 0x7A) : isSpace c = false := by
  simp only [isSpace, List.mem_cons, List.not_mem_nil, or_false, Bool.or_eq_false_iff,
    decide_eq_false_iff_not, Bool.and_eq_false_iff]
  omega

theorem isLineEnd_of_visible {c : Char} (h : 0x2B ≤ c.toNat ∧ c.toNat ≤ 0x7A) :
    isLineEnd c = false := by
  simp only [isLineEnd, List.mem_cons, List.not_mem_nil, or_false, decide_eq_false_iff_not]
  omega

/-- The header that carries a text of visible characters is read as that text. -/
theorem execBasic_of_visible {code : List Char} (hne : code ≠ [])
    (h : ∀ c ∈ code, 0x2B ≤ c.toNat ∧ c.toNat ≤ 0x7A) :
    execBasic ("Basic".toList ++ ' ' :: code) = some code := by
  have hspaces : ((' ' :: code).takeWhile isSpace).length = 1 := by
    cases code with
    | nil => exact absurd rfl hne
    | cons c code =>
      have hc := isSpace_of_visible (h c List.mem_cons_self)
      have hblank : isSpace ' ' = true := by decide
      simp [hblank, hc]
  have hgroup : code.takeWhile (fun c => !isLineEnd c) = code := by
    refine List.takeWhile_eq_self_iff.mpr fun c hc => ?_
    simp [isLineEnd_of_visible (h c hc)]
  have hexec : execBasic ("Basic".toList ++ ' ' :: code)
      = (spacesThenGroup (' ' :: code) ((' ' :: code).takeWhile isSpace).length).or
        (execBasic ("asic".toList ++ ' ' :: code)) :=
    if_pos (List.prefix_append _ _)
  rw [hexec, hspaces, spacesThenGroup]
  simp only [List.drop_succ_cons, List.drop_zero, hgroup, if_neg hne, Option.some_or]

theorem parseBasicAuth_encode {req : Request}
    (hreq : req.headers.lookup "authorization" = some ("Basic " ++ encode u p)) :
    Validate.parseBasicAuth req = .ok (encode u p) := by
  have hbytes : Utf8.encode (u ++ ":" ++ p).toList ≠ [] := by
    intro hnil
    have htext := Utf8.decode_encode (u ++ ":" ++ p).toList
    rw [hnil] at htext
    simp [Utf8.decode, Utf8.decodeFrom, Utf8.flush] at htext
  have hlist : (encode u p).toList = Base64.encode (Utf8.encode (u ++ ":" ++ p).toList) :=
    String.toList_ofList
  have hexec : execBasic ("Basic " ++ encode u p).toList = some (encode u p).toList := by
    have hbasic : ("Basic " ++ encode u p).toList = "Basic".toList ++ ' ' :: (encode u p).toList := by
      rw [String.toList_append]; rfl
    rw [hbasic, hlist]
    exact execBasic_of_visible (Base64.encode_ne_nil hbytes) fun c hc =>
      Base64.bounds_of_mem_encode hc
  have hne : "Basic " ++ encode u p ≠ "" := fun h => by
    have hempty := congrArg String.toList h
    rw [String.toList_append] at hempty
    exact absurd (List.append_eq_nil_iff.mp hempty).1 (by decide)
  have hheader : header req "authorization" = some ("Basic " ++ encode u p) := by
    rw [header, hreq, Option.filter_some, if_pos (decide_eq_true hne)]
  simp only [Validate.parseBasicAuth, hheader, hexec, String.ofList_toList]

/-- What is compared is the password up to its first colon. -/
theorem validateBasicAuth_encode {credentials : PlainObject String} {req : Request}
    (hL : RoundTrips L) (hu : ':' ∉ u.toList)
    (hreq : req.headers.lookup "authorization" = some ("Basic " ++ encode u p)) :
    Validate.validateBasicAuth L req credentials = .ok () ↔
      credentials.lookup u = some (beforeColon p) := by
  obtain ⟨rest, hdecode, -⟩ := decode_encode (p := p) hL hu
  have hpieces : Validate.decode L (encode u p) = (u, some (beforeColon p)) := by
    rw [validate_decode, hdecode]; rfl
  have hvalidate : Validate.validateBasicAuth L req credentials
      = Validate.checkCredentials L credentials (encode u p) := by
    rw [Validate.validateBasicAuth, parseBasicAuth_encode hreq]; rfl
  rw [hvalidate, Validate.checkCredentials, hpieces, ← PlainObject.read_eq_own]
  dsimp only
  rcases credentials.read u with _ | expected | _
  · simp
  · by_cases h : beforeColon p = expected
    · simp [h]
    · simp [h, Ne.symm h]
  · simp

end BasicAuth

/-- Some request has the header. -/
theorem exists_request (value : String) :
    ∃ req : Request, req.headers.lookup "authorization" = some value :=
  ⟨⟨"POST", (∅ : PlainObject String).insert "authorization" value, true, [], "", ""⟩,
    AList.lookup_insert _⟩

/-- For every table, every user name without a colon and every password: decoding gives both back iff
    the password has no colon, and a request with them is judged rightly iff the password has no colon
    or the user's own is neither the password nor its part before the first colon. -/
theorem authenticatesExactly_iff (L : Library) (hL : BasicAuth.RoundTrips L)
    (credentials : PlainObject String) (u p : String) (hu : ':' ∉ u.toList) :
    (BasicAuth.decode L (BasicAuth.encode u p) = [u, p] ↔ ':' ∉ p.toList) ∧
      (AuthenticatesExactly L credentials u p ↔ ':' ∉ p.toList ∨
        ∀ q, credentials.lookup u = some q → q ≠ p ∧ q ≠ beforeColon p) := by
  constructor
  · obtain ⟨rest, hdecode, hrest⟩ := BasicAuth.decode_encode (p := p) hL hu
    rw [hdecode, List.cons.injEq, List.cons.injEq, beforeColon_eq_self, hrest]
    simp
  · constructor
    · intro h
      by_cases hp : ':' ∈ p.toList
      · obtain ⟨req, hreq⟩ := exists_request ("Basic " ++ BasicAuth.encode u p)
        have hexact := h req hreq
        rw [BasicAuth.validateBasicAuth_encode hL hu hreq] at hexact
        have hne : beforeColon p ≠ p := fun heq => beforeColon_eq_self.mp heq hp
        refine Or.inr ?_
        rintro q hq
        rw [hq, Option.some.injEq, Option.some.injEq] at hexact
        exact ⟨fun heq => hne ((hexact.mpr heq) ▸ heq), fun heq => hne (heq ▸ hexact.mp heq)⟩
      · exact Or.inl hp
    · intro h req hreq
      rw [BasicAuth.validateBasicAuth_encode hL hu hreq]
      rcases h with hp | hother
      · rw [beforeColon_eq_self.mpr hp]
      · exact ⟨fun hq => absurd rfl (hother _ hq).2, fun hq => absurd rfl (hother _ hq).1⟩

/-- The table of `config/basicauth.js`. -/
def basicAuthTable : PlainObject String := List.toAList [⟨"default", "secret"⟩, ⟨"root", "letmein"⟩]

/-- Base64 and UTF-8 as they are. -/
def nodeLibrary : Library where
  numbers := ⟨fun _ => "", fun _ => .nan⟩
  urlParse _ := .ok none
  jsonParse _ := .error ""
  base64Decode text := String.ofList (Utf8.decode (Base64.decode text.toList))
  shaDigest text := text
  aesEncrypt _ := .error .library

theorem roundTrips_node : BasicAuth.RoundTrips nodeLibrary := by
  intro text
  simp only [nodeLibrary, BasicAuth.toBase64, String.toList_ofList, Base64.decode_encode,
    Utf8.decode_encode, String.ofList_toList]

theorem authenticatesExactly_default : BasicAuth.RoundTrips nodeLibrary ∧ ':' ∉ "default".toList ∧
    BasicAuth.decode nodeLibrary (BasicAuth.encode "default" "secret") = ["default", "secret"] ∧
    AuthenticatesExactly nodeLibrary basicAuthTable "default" "secret" := by
  have h := authenticatesExactly_iff nodeLibrary roundTrips_node basicAuthTable "default" "secret"
    (by decide)
  exact ⟨roundTrips_node, by decide, h.1.mpr (by decide), h.2.mpr (Or.inl (by decide))⟩

/-- The password `secret:junk` is not the one of the user, and passes. -/
theorem not_authenticatesExactly_suffix : basicAuthTable.lookup "default" = some "secret" ∧
    BasicAuth.RoundTrips nodeLibrary ∧ ∀ L : Library, BasicAuth.RoundTrips L →
      (∀ req : Request, req.headers.lookup "authorization"
          = some ("Basic " ++ BasicAuth.encode "default" "secret:junk") →
        Validate.validateBasicAuth L req basicAuthTable = .ok ()) ∧
      BasicAuth.decode L (BasicAuth.encode "default" "secret:junk") ≠ ["default", "secret:junk"] ∧
      ¬ AuthenticatesExactly L basicAuthTable "default" "secret:junk" := by
  refine ⟨rfl, roundTrips_node, fun L hL => ?_⟩
  have hu : ':' ∉ "default".toList := by decide
  have hcut : beforeColon "secret:junk" = "secret" := by decide
  have hpasses : ∀ req : Request, req.headers.lookup "authorization"
      = some ("Basic " ++ BasicAuth.encode "default" "secret:junk") →
      Validate.validateBasicAuth L req basicAuthTable = .ok () := by
    intro req hreq
    rw [BasicAuth.validateBasicAuth_encode hL hu hreq, hcut]
    rfl
  refine ⟨hpasses, fun h => ?_, fun h => ?_⟩
  · obtain ⟨rest, hdecode, -⟩ := BasicAuth.decode_encode (p := "secret:junk") hL hu
    rw [hdecode, hcut, List.cons.injEq, List.cons.injEq] at h
    exact absurd h.2.1 (by decide)
  · obtain ⟨req, hreq⟩ := exists_request ("Basic " ++ BasicAuth.encode "default" "secret:junk")
    have hlookup := (h req hreq).mp (hpasses req hreq)
    exact absurd hlookup (by decide)

end Elephant.Api
