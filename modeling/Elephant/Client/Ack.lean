import Elephant.Api.FieldSizes
import Elephant.Client.Registration
import Elephant.Schemes.JsonText

/-! The ack of a push, as the test client builds it.

        {"request_id":"…","data":  message  }          payload
        {"request_id":"…","data":  "[ 5 ]"}            ack

    The payload is copied into an array of 1024 characters and scanned; the ack is its beginning up to
    the key of the message, which comes before anything that the message can contain. -/

namespace Elephant.Client
open Elephant.Schemes Elephant.Schemes.C
open Elephant.Api (Library Request)

/-- A request id of letters, digits and dashes. -/
def IsRequestId (requestId : String) : Prop :=
  ∀ x ∈ requestId.toList, x.isAlphanum = true ∨ x = '-'

instance (requestId : String) : Decidable (IsRequestId requestId) :=
  decidable_of_iff (requestId.toList.all (fun x => x.isAlphanum || x == '-') = true)
    (by simp [IsRequestId])

/-- The body of the stream that `serverPush` pushes. -/
def payload (N : NumberText) (requestId message : String) : List UInt8 :=
  (Api.SpdyHandler.pushed N requestId (.str message)).body

/-- `JSON.parse` reads the texts of JSON. -/
def ReadsJson (L : Library) : Prop :=
  ∀ text v, JsonText.parse L.numbers text = some v → L.jsonParse (String.ofList text) = .ok v

/-- A push is received in one chunk, whatever is in memory behind it, and its ack is a JSON text that
    is accepted with the same request id. -/
def Acknowledges (L : Library) (t : ThreadUri) (streamId : Int32) (requestId message : String)
    (rest : Memory) : Prop :=
  ∃ body v, pushAck t streamId (payload L.numbers requestId message ++ rest)
      (payload L.numbers requestId message).length = .ok body ∧
    JsonText.parse L.numbers (Utf8.decode body) = some v ∧
    (∀ req : Request, req.body = String.ofList (Utf8.decode body) →
      Api.Validate.parseJson L req = .ok v) ∧
    Api.Ack.parseRequestId v = .ok (.ok (some (.str requestId)))

/-- The payload is shorter than the array it is copied into and does not ask the client to die; the
    client id and the ack fit as well. -/
structure Acknowledgeable (N : NumberText) (t : ThreadUri) (streamId : Int32)
    (requestId message : String) : Prop where
  short : (payload N requestId message).length < 1024
  spared : ¬ lit "diehard" <:+: payload N requestId message
  client : ∃ c, t.clientId.Holds c ∧ c.length ≤ 248
  named : requestId ≠ ""
  fits : (lit requestId).length + 24 + (lit (ackData streamId)).length < 1024

/-! ### The text of a payload -/

section

variable (N : NumberText) {r : String} (m : String)

theorem IsRequestId.urlSafe (h : IsRequestId r) : ∀ x ∈ r.toList, Base64.IsUrlSafe x := by
  intro x hx
  rcases h x hx with hx | hx
  · exact .inl hx
  · exact .inr (.inl hx)

/-- What is before the message. -/
def payloadFront (r : String) : List UInt8 :=
  lit "\x7b" ++ 34 :: (lit "request_id" ++ 34 :: (lit ":" ++ 34 :: (lit r ++ 34 :: (lit "," ++
    34 :: (lit "data" ++ 34 :: lit ":")))))

/-- The message and what is behind it. -/
def payloadMessage (m : String) : List UInt8 := Utf8.encode (quote m ++ ['\x7d'])

theorem length_payloadFront (r : String) : (payloadFront r).length = (lit r).length + 24 := by
  simp only [payloadFront, List.length_append, List.length_cons, length_parts]
  omega

theorem encode_front (hr : IsRequestId r) (text : List Char) :
    Utf8.encode ('\x7b' :: (quote "request_id" ++ ':' :: (quote r ++ ',' :: (quote "data" ++ ':' ::
      text)))) = payloadFront r ++ Utf8.encode text := by
  have htext : '\x7b' :: (quote "request_id" ++ ':' :: (quote r ++ ',' :: (quote "data" ++ ':' ::
      text))) = "\x7b".toList ++ '"' :: ("request_id".toList ++ '"' :: (":".toList ++ '"' ::
        (r.toList ++ '"' :: (",".toList ++ '"' :: ("data".toList ++ '"' :: (":".toList ++
          text)))))) := by
    rw [quote_urlSafe hr.urlSafe]
    simp [quote, escape]
  rw [htext]
  simp only [Utf8.encode_append, encode_mark, payloadFront, lit, List.append_assoc, List.cons_append]

theorem payload_eq (hr : IsRequestId r) : payload N r m = payloadFront r ++ payloadMessage m := by
  rw [payload, Api.SpdyHandler.pushed, Api.send, Api.pushData_toList, Json.write, encode_front hr,
    payloadMessage]

theorem zero_notMem_payload (hr : IsRequestId r) : 0 ∉ payload N r m := by
  have hmessage : 0 ∉ payloadMessage m := by
    intro hmem
    obtain ⟨c, hc, hnul⟩ := Utf8.exists_of_mem_encode hmem (by decide)
    obtain rfl : c = '\x00' := Char.toNat_inj.mp hnul
    rcases List.mem_append.mp hc with hc | hc
    · exact nul_notMem_quote m hc
    · exact absurd hc (by decide)
  rw [payload_eq N m hr, payloadFront]
  simp only [List.mem_append, List.mem_cons, not_or]
  simp [zero_notMem_parts, zero_notMem_urlSafe hr.urlSafe, hmessage]

theorem data_not_prefix_lit {s : String} {t : List UInt8} (h : (lit s).head? ≠ some 100)
    (hs : lit s ≠ []) : ¬ lit "data\":" <+: lit s ++ t := by
  have hdata : lit "data\":" = 100 :: [97, 116, 97, 34, 58] := by decide
  obtain ⟨b, bs, hb⟩ := List.exists_cons_of_ne_nil hs
  rw [hb] at h ⊢
  rw [hdata, List.cons_append, List.cons_prefix_cons]
  rintro ⟨rfl, -⟩
  exact h rfl

/-- The key of the message is found before the message, even if the request id is `data`. -/
theorem search_data (hr : IsRequestId r) :
    search (lit "\"data\":") (payload N r m) = some ((lit r).length + 17) := by
  have hkey : lit "\"data\":" = [] ++ 34 :: lit "data\":" := by decide
  have hsplit : lit "data\":" = lit "data" ++ 34 :: lit ":" := by decide
  have hmark := mark_notMem_urlSafe hr.urlSafe
  have hid : ¬ lit "data\":" <+: lit r ++ 34 :: (lit "," ++ 34 :: (lit "data" ++ 34 :: (lit ":" ++
      payloadMessage m))) := by
    rw [hsplit, sep_prefix_iff (by decide) hmark]
    exact fun h => colon_not_prefix_comma h.2
  have hfound : search ([] ++ 34 :: lit "data\":") (lit "," ++ 34 :: (lit "data" ++ 34 :: (lit ":" ++
      payloadMessage m))) = some (lit ",").length :=
    search_found (a := []) List.not_mem_nil (by decide)
      ⟨payloadMessage m, by rw [hsplit, List.append_assoc, List.cons_append]⟩
  rw [payload_eq N m hr, payloadFront, hkey]
  simp only [List.append_assoc, List.cons_append]
  rw [search_segment List.not_mem_nil (by decide) fun h => data_not_prefix_lit (by decide) (by decide) h.2,
    search_segment List.not_mem_nil (by decide) fun h => data_not_prefix_lit (by decide) (by decide) h.2,
    search_segment List.not_mem_nil (by decide) fun h => hid h.2,
    search_segment List.not_mem_nil hmark fun h => data_not_prefix_lit (by decide) (by decide) h.2,
    hfound]
  simp only [Option.map_some, length_parts, Option.some.injEq]
  omega

end

/-! ### The ack of a payload -/

/-- The bytes of an ack. -/
def ackText (requestId : String) (streamId : Int32) : List UInt8 :=
  payloadFront requestId ++ lit (ackData streamId)

theorem length_ackText (r : String) (streamId : Int32) :
    (ackText r streamId).length = (lit r).length + 24 + (lit (ackData streamId)).length := by
  rw [ackText, List.length_append, length_payloadFront]

section

variable (N : NumberText) {r : String} (m : String) (hr : IsRequestId r) (streamId : Int32)
include hr

/-- The key of the message is found in a payload, and the rest is copying. -/
theorem dataSourceReadCallback_eq {source : Memory}
    (hsource : readString source = .ok (payload N r m)) :
    dataSourceReadCallback streamId blockLength source = (do
      let ack ← (CharArray.zero 1024).snprintf ((payloadFront r).length + 1) (payload N r m)
      let ack ← ack.strcpy (payloadFront r).length (lit (ackData streamId))
      let text ← ack.str
      let buf ← (CharArray.zero blockLength).strcpy 0 text
      return buf.bytes.take text.length) := by
  have hoffset : (lit r).length + 17 + 7 = (payloadFront r).length := by rw [length_payloadFront]
  simp only [dataSourceReadCallback, strstr, hsource, Except.map, search_data N m hr, dereference,
    Option.elim_some, bind, Except.bind, hoffset]

/-- An ack is the beginning of the payload, with the id of the stream for the message. -/
theorem dataSourceReadCallback_ok {source : Memory} (hsource : readString source = .ok (payload N r m))
    (hzero : 0 ∉ lit (ackData streamId)) (hfit : (ackText r streamId).length < 1024) :
    dataSourceReadCallback streamId blockLength source = .ok (ackText r streamId) := by
  have htext : (ackText r streamId).length = (payloadFront r).length + (lit (ackData streamId)).length :=
    List.length_append
  have hpayload := payload_eq N m hr
  have hnot := zero_notMem_payload N m hr
  have htake : (payload N r m).take (payloadFront r).length = payloadFront r := by
    rw [hpayload, List.take_left]
  have hfront : 0 ∉ payloadFront r := fun hmem => hnot (by rw [hpayload]; simp [hmem])
  have hacknot : 0 ∉ ackText r streamId := fun hmem =>
    (List.mem_append.mp hmem).elim hfront hzero
  obtain ⟨ack₁, hack₁, hholds₁⟩ := CharArray.snprintf_ok (a := CharArray.zero 1024)
    (j := (payloadFront r).length) hnot (by rw [hpayload]; simp) (by omega)
  rw [htake] at hholds₁
  obtain ⟨ack₂, hack₂, hholds₂⟩ := CharArray.strcpy_ok (s := lit (ackData streamId)) hholds₁.take
    hacknot (by omega)
  obtain ⟨buf, hbuf, hholds⟩ := CharArray.strcpy_ok (a := CharArray.zero blockLength) (i := 0) (t := [])
    (s := ackText r streamId) rfl hacknot (by unfold blockLength; omega)
  have hread : buf.bytes.take (ackText r streamId).length = ackText r streamId := hholds.take
  have hstr : ack₂.str = .ok (ackText r streamId) := hholds₂.str_eq
  rw [dataSourceReadCallback_eq N m hr streamId hsource]
  simp only [bind, Except.bind, hack₁, hack₂, hstr, hbuf, hread]
  rfl

theorem dataSourceReadCallback_long {source : Memory}
    (hsource : readString source = .ok (payload N r m)) (hfit : 1024 ≤ (ackText r streamId).length) :
    dataSourceReadCallback streamId blockLength source = .error .outOfBounds := by
  rw [dataSourceReadCallback_eq N m hr streamId hsource]
  have htext : (ackText r streamId).length = (payloadFront r).length + (lit (ackData streamId)).length :=
    List.length_append
  have hpayload := payload_eq N m hr
  have hnot := zero_notMem_payload N m hr
  have hle : (payloadFront r).length ≤ (payload N r m).length := by rw [hpayload]; simp
  by_cases hfront : (payloadFront r).length < 1024
  · obtain ⟨ack, hack, -⟩ := CharArray.snprintf_ok (a := CharArray.zero 1024)
      (j := (payloadFront r).length) hnot hle hfront
    have hlong : ack.strcpy (payloadFront r).length (lit (ackData streamId)) = .error .outOfBounds :=
      CharArray.strcpy_overflow (by omega)
    simp only [bind, Except.bind, hack, hlong]
  · have hlong := CharArray.snprintf_overflow (a := CharArray.zero 1024) hle (Nat.not_lt.mp hfront)
    simp only [bind, Except.bind, hlong]

end

section

variable {P : List UInt8} (hP : 0 ∉ P) (t : ThreadUri) (rest : Memory)
include hP

theorem submitRequestPushack_ok {c : List UInt8} (hshort : P.length < 1024)
    (hspared : ¬ lit "diehard" <:+: P) (hc : t.clientId.Holds c) (hlen : c.length ≤ 248) :
    ∃ t' request, submitRequestPushack t (P ++ rest) P.length = .ok (t', request) ∧
      readString request.source = .ok P := by
  obtain ⟨pushData, hpushData, hholds⟩ := CharArray.strncpy_ok hP rest hshort
  obtain ⟨clid, hclid, hclidHolds⟩ := basicClientId_ok hc hlen
  obtain ⟨datacopy, hdatacopy, hcopyHolds⟩ :=
    CharArray.strncpy_ok (n := P.length + 1) hP rest (Nat.lt_succ_self _)
  have hread : readString pushData.bytes = .ok P := hholds.str_eq
  have hsearch : search (lit "diehard") P = none := search_eq_none.mpr hspared
  have hsubmit : submitRequestPushack t (P ++ rest) P.length
      = .ok ({ t with pushData := pushData }, ⟨lit "Basic  " ++ c, datacopy.bytes⟩) := by
    simp only [submitRequestPushack, hpushData, bind, Except.bind, strstr, hread, Except.map, hsearch,
      hclid, hclidHolds.str_eq, hdatacopy]
    rfl
  exact ⟨_, _, hsubmit, hcopyHolds.str_eq⟩

theorem submitRequestPushack_long (hlong : 1024 ≤ P.length) :
    submitRequestPushack t (P ++ rest) P.length = .error .outOfBounds := by
  rcases CharArray.strncpy_long hP rest hlong with hcopy | ⟨pushData, hcopy, hstr⟩
  · simp only [submitRequestPushack, hcopy, bind, Except.bind]
  · have hread : readString pushData.bytes = .error .outOfBounds := hstr
    simp only [submitRequestPushack, hcopy, bind, Except.bind, strstr, hread, Except.map]

/-- The thread exits instead of acknowledging. -/
theorem submitRequestPushack_diehard (hshort : P.length < 1024) (hdie : lit "diehard" <:+: P) :
    submitRequestPushack t (P ++ rest) P.length = .error .threadExit := by
  obtain ⟨pushData, hpushData, hholds⟩ := CharArray.strncpy_ok hP rest hshort
  have hread : readString pushData.bytes = .ok P := hholds.str_eq
  obtain ⟨i, hi⟩ : ∃ i, search (lit "diehard") P = some i := by
    cases hsearch : search (lit "diehard") P with
    | none => exact absurd hdie (search_eq_none.mp hsearch)
    | some i => exact ⟨i, rfl⟩
  simp only [submitRequestPushack, hpushData, bind, Except.bind, strstr, hread, Except.map, hi]
  rfl

theorem submitRequestPushack_client (hshort : P.length < 1024) (hspared : ¬ lit "diehard" <:+: P)
    (hclient : basicClientId t.clientId = .error .outOfBounds) :
    submitRequestPushack t (P ++ rest) P.length = .error .outOfBounds := by
  obtain ⟨pushData, hpushData, hholds⟩ := CharArray.strncpy_ok hP rest hshort
  have hread : readString pushData.bytes = .ok P := hholds.str_eq
  have hsearch : search (lit "diehard") P = none := search_eq_none.mpr hspared
  simp only [submitRequestPushack, hpushData, bind, Except.bind, strstr, hread, Except.map, hsearch,
    hclient]
  rfl

end

/-! ### The ack is accepted -/

/-- What stands for the message. -/
def ackMessage (streamId : Int32) : String := "[ " ++ toString streamId.toInt ++ " ]"

theorem plain_ackMessage (streamId : Int32) : ∀ c ∈ (ackMessage streamId).toList, Plain c := by
  intro c hc
  simp only [ackMessage, String.toList_append, List.mem_append] at hc
  rcases hc with (hc | hc) | hc
  · exact plain_of_all (by decide) c hc
  · refine plain_urlSafe ?_
    rcases mem_toString_int hc with hc | hc
    · exact .inl (by simp [Char.isAlphanum, hc])
    · exact .inr (.inl hc)
  · exact plain_of_all (by decide) c hc

theorem ackData_toList (streamId : Int32) :
    (ackData streamId).toList = quote (ackMessage streamId) ++ ['\x7d'] := by
  rw [quote_plain (plain_ackMessage streamId), ackData, ackMessage]
  simp

theorem zero_notMem_ackData (streamId : Int32) : 0 ∉ lit (ackData streamId) := by
  refine zero_notMem_lit ?_
  rw [ackData_toList, List.mem_append, not_or]
  exact ⟨nul_notMem_quote _, by decide⟩

theorem ackText_eq {r : String} (hr : IsRequestId r) (streamId : Int32) :
    ackText r streamId = Utf8.encode ('\x7b' :: (JsonText.memberTexts
      [("request_id", r), ("data", ackMessage streamId)] ++ ['\x7d'])) := by
  have htext : '\x7b' :: (JsonText.memberTexts [("request_id", r), ("data", ackMessage streamId)] ++
      ['\x7d']) = '\x7b' :: (quote "request_id" ++ ':' :: (quote r ++ ',' :: (quote "data" ++ ':' ::
        (quote (ackMessage streamId) ++ ['\x7d'])))) := by
    simp [JsonText.memberTexts]
  rw [htext, encode_front hr, ← ackData_toList, ackText, lit]

/-- An ack is an object of two strings. -/
theorem parse_ackText (N : NumberText) {r : String} (hr : IsRequestId r) (streamId : Int32) :
    JsonText.parse N (Utf8.decode (ackText r streamId))
      = some (.obj [("request_id", .str r), ("data", .str (ackMessage streamId))]) := by
  rw [ackText_eq hr, Utf8.decode_encode, JsonText.parse_strings]
  rfl

theorem parseRequestId_str {r data : String} (h : r ≠ "") :
    Api.Ack.parseRequestId (.obj [("request_id", .str r), ("data", .str data)])
      = .ok (.ok (some (.str r))) := by
  have hget : Json.get (.obj [("request_id", .str r), ("data", .str data)]) "request_id"
      = .ok (some (.str r)) := rfl
  have htruthy := Api.truthy_str.mpr h
  simp only [Api.Ack.parseRequestId, Api.parseField, hget, bind, Except.bind, htruthy]
  rfl

/-- An accepted request id is not empty. -/
theorem ne_empty_of_parseRequestId {v : Json} {r : String}
    (h : Api.Ack.parseRequestId v = .ok (.ok (some (.str r)))) : r ≠ "" := by
  rw [← Api.truthy_str]
  rw [Api.Ack.parseRequestId, Api.parseField] at h
  cases hget : v.get "request_id" with
  | error e => rw [hget] at h; simp [bind, Except.bind] at h
  | ok value =>
    rw [hget] at h
    cases htruthy : Json.truthy value with
    | false => simp [bind, Except.bind, htruthy, pure, Except.pure] at h
    | true =>
      simp only [bind, Except.bind, htruthy, pure, Except.pure, Bool.not_true, Bool.false_eq_true,
        if_false, Except.ok.injEq] at h
      rw [← h, htruthy]

/-! ### The length of a payload -/

structure IsUuid (requestId : String) : Prop where
  length : requestId.toList.length = 36
  chars : IsRequestId requestId

/-- 61 bytes are around the message. -/
theorem length_payload (N : NumberText) {r : String} (hr : IsUuid r) (m : String) :
    (payload N r m).length = 61 + (Utf8.encode (quote m)).length := by
  have hend : (Utf8.encode ['\x7d']).length = 1 := by decide
  rw [payload_eq N m hr.chars, List.length_append, length_payloadFront,
    length_lit_urlSafe hr.chars.urlSafe, hr.length, payloadMessage, Utf8.encode_append,
    List.length_append, hend]
  omega

/-- The request id of the messages below. -/
def someUuid : String := "6c84fb90-12c4-11e1-840d-7b25c5ee775a"

theorem isUuid_someUuid : IsUuid someUuid := ⟨by decide, by decide⟩

/-- A message of letters. -/
def letters (n : ℕ) : String := String.ofList (List.replicate n 'a')

theorem length_quote_letters (n : ℕ) : (Utf8.encode (quote (letters n))).length = n + 2 := by
  have hplain : ∀ c ∈ (letters n).toList, Plain c := by
    intro c hc
    rw [letters, String.toList_ofList] at hc
    obtain rfl := List.eq_of_mem_replicate hc
    exact ⟨by decide, by decide, by decide⟩
  have htext : quote (letters n) = ['"'] ++ List.replicate n 'a' ++ ['"'] := by
    rw [quote_plain hplain, letters, String.toList_ofList]
    rfl
  have hmark : (Utf8.encode ['"']).length = 1 := by decide
  have hascii := isAscii_replicate (c := 'a') (by decide) n
  have hletters : (Utf8.encode (List.replicate n 'a')).length = n := by
    rw [← (utf16Length_encode _).2.mpr hascii, utf16Length_of_isAscii hascii, List.length_replicate]
  rw [htext, Utf8.encode_append, Utf8.encode_append, List.length_append, List.length_append, hmark,
    hletters]
  omega

/-! ### Pushes that are acknowledged -/

section

variable {N : NumberText} {t : ThreadUri} {streamId : Int32} {r m : String} {rest : Memory}

theorem pushAck_error {data : Memory} {len : ℕ} {e : Stop}
    (h : submitRequestPushack t data len = .error e) : pushAck t streamId data len = .error e := by
  simp only [pushAck, h, bind, Except.bind]

theorem pushAck_ok (hr : IsRequestId r) (h : Acknowledgeable N t streamId r m) :
    pushAck t streamId (payload N r m ++ rest) (payload N r m).length = .ok (ackText r streamId) := by
  obtain ⟨c, hc, hlen⟩ := h.client
  have hnot := zero_notMem_payload N m hr
  obtain ⟨t', request, hsubmit, hsource⟩ :=
    submitRequestPushack_ok hnot t rest h.short h.spared hc hlen
  have hack := dataSourceReadCallback_ok N m hr streamId hsource (zero_notMem_ackData streamId)
    (by rw [length_ackText]; exact h.fits)
  simp only [pushAck, hsubmit, bind, Except.bind, hack]

/-- Only such a push is acknowledged at all. -/
theorem acknowledgeable_of_pushAck (hr : IsRequestId r) (hname : r ≠ "") {body : List UInt8}
    (h : pushAck t streamId (payload N r m ++ rest) (payload N r m).length = .ok body) :
    Acknowledgeable N t streamId r m := by
  have hnot := zero_notMem_payload N m hr
  have hshort : (payload N r m).length < 1024 := by
    by_contra hlong
    rw [pushAck_error (submitRequestPushack_long hnot t rest (Nat.not_lt.mp hlong))] at h
    exact absurd h (by simp)
  have hspared : ¬ lit "diehard" <:+: payload N r m := by
    intro hdie
    rw [pushAck_error (submitRequestPushack_diehard hnot t rest hshort hdie)] at h
    exact absurd h (by simp)
  have hclient : ∃ c, t.clientId.Holds c ∧ c.length ≤ 248 := by
    by_contra hno
    rw [pushAck_error
      (submitRequestPushack_client hnot t rest hshort hspared (basicClientId_error hno))] at h
    exact absurd h (by simp)
  obtain ⟨c, hc, hlen⟩ := hclient
  obtain ⟨t', request, hsubmit, hsource⟩ := submitRequestPushack_ok hnot t rest hshort hspared hc hlen
  refine ⟨hshort, hspared, ⟨c, hc, hlen⟩, hname, ?_⟩
  rw [← length_ackText]
  by_contra hlong
  have hack := dataSourceReadCallback_long N m hr streamId hsource (Nat.not_lt.mp hlong)
  simp [pushAck, hsubmit, bind, Except.bind, hack] at h

end

/-- For every message, request id, stream and state of the client: the push is acknowledged with its
    request id iff the copies fit, the message does not ask the client to die and the request id is
    not empty. -/
theorem acknowledges_iff (L : Library) (hL : ReadsJson L) (t : ThreadUri) (streamId : Int32)
    (requestId message : String) (hid : IsRequestId requestId) (rest : Memory) :
    Acknowledges L t streamId requestId message rest ↔
      Acknowledgeable L.numbers t streamId requestId message := by
  constructor
  · rintro ⟨body, v, hack, -, -, haccepted⟩
    exact acknowledgeable_of_pushAck hid (ne_empty_of_parseRequestId haccepted) hack
  · intro h
    have hparse := parse_ackText L.numbers hid streamId
    refine ⟨_, _, pushAck_ok hid h, hparse, fun req hreq => ?_, parseRequestId_str h.named⟩
    have hjson := hL _ _ hparse
    rw [Api.Validate.parseJson, hreq, hjson]

/-- A library that reads JSON and no numbers. -/
def jsonLibrary : Library where
  numbers := ⟨fun _ => "", fun _ => .nan⟩
  urlParse _ := .ok none
  jsonParse text := (JsonText.parse ⟨fun _ => "", fun _ => .nan⟩ text.toList).elim (.error "") .ok
  base64Decode text := text
  shaDigest text := text
  aesEncrypt _ := .error .library

theorem readsJson_jsonLibrary : ReadsJson jsonLibrary := by
  intro text v h
  have hparse : JsonText.parse ⟨fun _ => "", fun _ => .nan⟩ (String.ofList text).toList = some v := by
    rw [String.toList_ofList]
    exact h
  simp only [jsonLibrary, hparse]
  rfl

/-- A message that looks like the end of the payload is acknowledged as any other. -/
theorem acknowledges_lookalike : IsRequestId someUuid ∧
    Acknowledges jsonLibrary freshThread 5 someUuid "\",\"data\":\"" [] := by
  have hid : IsRequestId someUuid := by decide
  refine ⟨hid, (acknowledges_iff jsonLibrary readsJson_jsonLibrary freshThread 5 someUuid _ hid []).mpr
    ⟨?_, ?_, ⟨[], CharArray.holds_zero (by decide), by decide⟩, by decide, by decide⟩⟩
  · rw [payload_eq _ _ hid]
    decide
  · rw [payload_eq _ _ hid]
    exact search_eq_none.mp (by decide +kernel)

/-- The payload of 961 letters has 1024 bytes: it fills the array, the copy has no end, and the scan of
    it runs out of the array. -/
theorem not_acknowledges_letters : IsRequestId someUuid ∧
    ∀ (L : Library) (t : ThreadUri) (streamId : Int32) (rest : Memory),
      (payload L.numbers someUuid (letters 961)).length = 1024 ∧
        pushAck t streamId (payload L.numbers someUuid (letters 961) ++ rest)
          (payload L.numbers someUuid (letters 961)).length = .error .outOfBounds ∧
        ¬ Acknowledges L t streamId someUuid (letters 961) rest := by
  have hid : IsRequestId someUuid := isUuid_someUuid.chars
  refine ⟨hid, fun L t streamId rest => ?_⟩
  have hlen : (payload L.numbers someUuid (letters 961)).length = 1024 := by
    rw [length_payload _ isUuid_someUuid, length_quote_letters]
  have hstop : pushAck t streamId (payload L.numbers someUuid (letters 961) ++ rest)
      (payload L.numbers someUuid (letters 961)).length = .error .outOfBounds :=
    pushAck_error (submitRequestPushack_long (zero_notMem_payload L.numbers _ hid) t rest hlen.ge)
  refine ⟨hlen, hstop, ?_⟩
  rintro ⟨body, v, hack, -⟩
  rw [hstop] at hack
  exact absurd hack (by simp)

/-! ### The sizes of the copies -/

/-- The copy that is kept of a payload is shorter than its array and has an end, and every ack of it
    fits into its own. -/
structure CopiesFit (N : NumberText) (requestId message : String) (rest : Memory) : Prop where
  stored : (payload N requestId message).length < 1024
  ended : ((CharArray.zero 1024).strncpy (payload N requestId message ++ rest)
    (payload N requestId message).length).bind CharArray.str = .ok (payload N requestId message)
  acked : ∀ streamId, ∃ body,
    dataSourceReadCallback streamId blockLength (payload N requestId message ++ [0]) = .ok body

theorem length_ackData_le (streamId : Int32) : (lit (ackData streamId)).length ≤ 18 := by
  have hdigits := length_toString_int32 streamId
  have hascii : IsAscii (ackData streamId).toList := by
    intro x hx
    have hends : IsAscii ("\"[ ".toList ++ " ]\"\x7d".toList) := by decide
    simp only [ackData, String.toList_append, List.mem_append] at hx
    rcases hx with (hx | hx) | hx
    · exact hends x (List.mem_append_left _ hx)
    · rcases mem_toString_int hx with hx | hx
      · exact (Base64.IsUrlSafe.bounds (.inl (by simp [Char.isAlphanum, hx]))).2
      · rw [hx]; decide
    · exact hends x (List.mem_append_right _ hx)
  have hends : "\"[ ".toList.length = 3 ∧ " ]\"\x7d".toList.length = 4 := by decide
  rw [length_lit_ascii hascii]
  simp only [ackData, String.toList_append, List.length_append, hends]
  omega

/-- For every message: the copies of its payload fit iff the quoted message has at most 962 bytes. -/
theorem copiesFit_iff (N : NumberText) (requestId message : String) (hid : IsUuid requestId)
    (rest : Memory) : CopiesFit N requestId message rest ↔
      (Utf8.encode (quote message)).length ≤ 962 := by
  have hlen := length_payload N hid message
  constructor
  · intro h
    have hstored := h.stored
    omega
  · intro h
    have hshort : (payload N requestId message).length < 1024 := by omega
    have hnot := zero_notMem_payload N message hid.chars
    refine ⟨hshort, ?_, fun streamId => ?_⟩
    · rw [CharArray.strncpy_zero hnot, if_pos hshort]
    · have hack := length_ackData_le streamId
      refine ⟨_, dataSourceReadCallback_ok N message hid.chars streamId
        (readString_eq (cstr_append hnot [])) (zero_notMem_ackData streamId) ?_⟩
      rw [length_ackText, length_lit_urlSafe hid.chars.urlSafe, hid.length]
      omega

theorem copiesFit_hello : ∃ params,
    Api.Push.parsePushMessage jsonLibrary.numbers (fun _ => .ok (some "https:")) Api.stringPush
      = .ok (.ok params) ∧ params.message = .str "hello" ∧ IsUuid someUuid ∧
      CopiesFit jsonLibrary.numbers someUuid "hello" [] :=
  ⟨_, rfl, rfl, isUuid_someUuid,
    (copiesFit_iff jsonLibrary.numbers someUuid "hello" isUuid_someUuid []).mpr (by decide)⟩

theorem letters_ne_empty (n : ℕ) : letters (n + 1) ≠ "" := by
  intro h
  have htext := congrArg String.toList h
  rw [letters, String.toList_ofList, List.replicate_succ] at htext
  exact List.cons_ne_nil _ _ htext

/-- 961 letters are admitted. Their payload fills the array, and the copy has no end. -/
theorem not_copiesFit_letters : IsUuid someUuid ∧
    ∀ (N : NumberText) (urlParse : String → Except Throw (Option String)) (rest : Memory),
      Api.Push.parsePushMessage N urlParse (.obj [("message", .str (letters 961))])
          = .ok (.ok ⟨.str (letters 961), none⟩) ∧
        (payload N someUuid (letters 961)).length = 1024 ∧
        ((CharArray.zero 1024).strncpy (payload N someUuid (letters 961) ++ rest)
          (payload N someUuid (letters 961)).length).bind CharArray.str = .error .outOfBounds ∧
        ¬ CopiesFit N someUuid (letters 961) rest := by
  refine ⟨isUuid_someUuid, fun N urlParse rest => ?_⟩
  have hlen : (payload N someUuid (letters 961)).length = 1024 := by
    rw [length_payload N isUuid_someUuid, length_quote_letters]
  have hshort : Api.Fits (letters 961) := by
    rw [Api.Fits, letters, utf16Length_of_isAscii (isAscii_replicate (by decide) _),
      List.length_replicate]
    decide
  refine ⟨?_, hlen, ?_, fun h => by have hstored := h.stored; omega⟩
  · refine (Api.parsePushMessage_iff (by simp)).mpr ⟨rfl, ?_, (Api.tooLong_str N _).mpr hshort, rfl,
      fun c hc => by simp at hc⟩
    rw [Api.truthy_str]
    exact letters_ne_empty 960
  · rw [CharArray.strncpy_zero (zero_notMem_payload N _ isUuid_someUuid.chars), hlen]
    rfl

end Elephant.Client
