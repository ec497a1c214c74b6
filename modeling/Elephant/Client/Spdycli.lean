import Elephant.Schemes.CString
import Elephant.Schemes.Utf8

/-! The test client (`client/spdylay/client/spdycli.c`).

    A chunk of a response is scanned for the ids that it issues; a chunk of a pushed stream is copied
    and acknowledged with its own beginning:

        response ──▶ updateClientPushId ──▶ getClientId, getPushId ──▶ submit_request_listenV2
        push     ──▶ submit_request_pushack ──▶ data_source_read_callback

    The strings are in arrays of fixed size. -/

namespace Elephant.Client
open Elephant.Schemes Elephant.Schemes.C

/-- A string literal. -/
def lit (s : String) : List UInt8 := Utf8.encode s.toList

/-- The flags that the functions below read. -/
structure Flags where
  unitmode : Bool
  fullmode : Bool
  refreshmode : Bool
  unauthorizedlisten : Bool
  deriving DecidableEq, Repr

structure ThreadUri where
  clientId : CharArray 256
  pushId : CharArray 256
  pushData : CharArray 1024

/-- What is given to `spdylay_submit_request` for a listen. -/
structure ListenRequest where
  path : List UInt8
  authorization : List UInt8
  deriving DecidableEq, Repr

/-- What is given to `spdylay_submit_request` for an ack. -/
structure AckRequest where
  authorization : List UInt8
  source : Memory
  deriving DecidableEq, Repr

/-! ### Responses -/

/-- `getClientId` and `getPushId`: the text between the marks behind the key. -/
def getId (key opened : String) (data : Memory) (retbuf : CharArray 256) :
    Except Stop (CharArray 256) := do
  let found ← strstr data (lit key)
  let p ← dereference found
  let value := data.drop (p + (lit opened).length)
  let closed ← strstr value (lit "\"")
  let q ← dereference closed
  let text ← readString value
  retbuf.snprintf (q + 1) text

def getClientId (data : Memory) (retbuf : CharArray 256) : Except Stop (CharArray 256) :=
  getId "client_id\":" "client_id\":\"" data retbuf

def getPushId (data : Memory) (retbuf : CharArray 256) : Except Stop (CharArray 256) :=
  getId "push_id\":" "push_id\":\"" data retbuf

/-- `"Basic  "` and the client id. -/
def basicClientId (clientId : CharArray 256) : Except Stop (CharArray 256) := do
  let clid ← (CharArray.zero 256).strcat (lit "Basic  ")
  let id ← clientId.str
  clid.strcat id

/-- A listen with a wrong id can be tested. -/
def listenClientId (flags : Flags) (clientId : CharArray 256) : Except Stop (CharArray 256) :=
  (basicClientId clientId).bind fun clid =>
    if flags.unauthorizedlisten then clid.strcpy 0 (lit "wrong-client-id") else .ok clid

def submitRequestListenV2 (flags : Flags) (clientId pushId : CharArray 256) :
    Except Stop ListenRequest := do
  let path ← (CharArray.zero 256).strcat (lit "/client/v2/")
  let id ← pushId.str
  let path ← path.strcat id
  let path ← path.strcat (lit "?min_ping_interval_sec=30")
  let clid ← listenClientId flags clientId
  let path ← path.str
  let authorization ← clid.str
  return ⟨path, authorization⟩

/-- The ids of a response, and the listen that follows. -/
def obtainIds (flags : Flags) (t : ThreadUri) (data : Memory) :
    Except Stop (ThreadUri × Option ListenRequest) := do
  let clientId ← getClientId data t.clientId
  let pushId ← getPushId data t.pushId
  let request ← submitRequestListenV2 flags clientId pushId
  return ({ t with clientId := clientId, pushId := pushId }, some request)

/-- A response is scanned only while the string is empty. -/
def obtainUnless (known : CharArray 256) (flags : Flags) (t : ThreadUri) (data : Memory) :
    Except Stop (ThreadUri × Option ListenRequest) := do
  let s ← known.str
  if s.length > 0 then return (t, none) else obtainIds flags t data

def updateClientPushId (flags : Flags) (t : ThreadUri) (data : Memory) :
    Except Stop (ThreadUri × Option ListenRequest) :=
  if flags.unitmode then .error .exit
  else if flags.fullmode then obtainUnless t.clientId flags t data
  else if flags.refreshmode then obtainUnless t.pushId flags t data
  else .ok (t, none)

/-! ### Pushes -/

/-- A pushed chunk of `len` bytes is stored, and a copy of it is handed to the ack. -/
def submitRequestPushack (t : ThreadUri) (data : Memory) (len : ℕ) :
    Except Stop (ThreadUri × AckRequest) := do
  let pushData ← (CharArray.zero 1024).strncpy data len
  let diehard ← strstr pushData.bytes (lit "diehard")
  if diehard.isSome then .error .threadExit
  else
    let clid ← basicClientId t.clientId
    let authorization ← clid.str
    let datacopy ← (CharArray.zero (len + 1)).strncpy data len
    return ({ t with pushData := pushData }, ⟨authorization, datacopy.bytes⟩)

/-- `sprintf("\"[ %d ]\"}", stream_id)`. -/
def ackData (streamId : Int32) : String := "\"[ " ++ toString streamId.toInt ++ " ]\"\x7d"

/-- The body of an ack, in a block of `len` bytes. -/
def dataSourceReadCallback (streamId : Int32) (len : ℕ) (source : Memory) :
    Except Stop (List UInt8) := do
  let found ← strstr source (lit "\"data\":")
  let p ← dereference found
  let offset := p + 7
  let pdata ← readString source
  let ack ← (CharArray.zero 1024).snprintf (offset + 1) pdata
  let ack ← ack.strcpy offset (lit (ackData streamId))
  let text ← ack.str
  let buf ← (CharArray.zero len).strcpy 0 text
  return buf.bytes.take text.length

/-- The block that the ack is read into. -/
def blockLength : ℕ := 4096

/-- A chunk of a pushed stream, and the body of its ack. -/
def pushAck (t : ThreadUri) (streamId : Int32) (data : Memory) (len : ℕ) :
    Except Stop (List UInt8) := do
  let submitted ← submitRequestPushack t data len
  dataSourceReadCallback streamId blockLength submitted.2.source

/-! ### What the functions compute -/

theorem zero_notMem_lit {s : String} (h : '\x00' ∉ s.toList) : 0 ∉ lit s := by
  intro hmem
  obtain ⟨c, hc, hzero⟩ := Utf8.exists_of_mem_encode hmem (by decide)
  obtain rfl : c = '\x00' := Char.toNat_inj.mp hzero
  exact h hc

theorem mark_notMem_lit {s : String} (h : '"' ∉ s.toList) : 34 ∉ lit s := by
  intro hmem
  obtain ⟨c, hc, hmark⟩ := Utf8.exists_of_mem_encode hmem (by decide)
  obtain rfl : c = '"' := Char.toNat_inj.mp hmark
  exact h hc

section

variable {key opened : String} {front value tail : List UInt8} {retbuf : CharArray 256}

/-- The value that is found, up to its closing mark. -/
theorem getId_ok (rest : List UInt8) (hzero : 0 ∉ front ++ (lit opened ++ (value ++ 34 :: tail)))
    (hsearch : search (lit key) (front ++ (lit opened ++ (value ++ 34 :: tail))) = some front.length)
    (hvalue : 34 ∉ value) (hfit : value.length < 256) :
    ∃ retbuf', getId key opened (front ++ (lit opened ++ (value ++ 34 :: tail)) ++ 0 :: rest) retbuf
      = .ok retbuf' ∧ retbuf'.Holds value := by
  have hdata := readString_eq (cstr_append hzero rest)
  have hzero' : 0 ∉ value ++ 34 :: tail := fun hmem => hzero (by simp [hmem])
  have hdrop : (front ++ (lit opened ++ (value ++ 34 :: tail)) ++ 0 :: rest).drop
      (front.length + (lit opened).length) = value ++ 34 :: tail ++ 0 :: rest := by
    rw [← List.append_assoc front, List.append_assoc]
    exact List.drop_left' (by simp)
  have hstring := readString_eq (cstr_append hzero' rest)
  have hclosed : search (lit "\"") (value ++ 34 :: tail) = some value.length :=
    search_found (a := []) (c := (34 : UInt8)) (b := []) List.not_mem_nil hvalue List.nil_prefix
  obtain ⟨retbuf', hprinted, hholds⟩ := CharArray.snprintf_ok (a := retbuf) (j := value.length)
    hzero' (by simp) hfit
  rw [List.take_left] at hholds
  refine ⟨retbuf', ?_, hholds⟩
  simp only [getId, strstr, hdata, Except.map, hsearch, dereference, Option.elim_some, bind,
    Except.bind, hdrop, hstring, hclosed, hprinted]

/-- The key is not there. -/
theorem getId_missing {text : List UInt8} (rest : List UInt8) (hzero : 0 ∉ text)
    (hsearch : search (lit key) text = none) :
    getId key opened (text ++ 0 :: rest) retbuf = .error .nullDereference := by
  have hdata := readString_eq (cstr_append hzero rest)
  simp only [getId, strstr, hdata, Except.map, hsearch, dereference, Option.elim_none, bind,
    Except.bind]

end

section

variable {clientId pushId : CharArray 256} {c p : List UInt8}

theorem basicClientId_ok (h : clientId.Holds c) (hfit : c.length ≤ 248) :
    ∃ clid, basicClientId clientId = .ok clid ∧ clid.Holds (lit "Basic  " ++ c) := by
  obtain ⟨basic, hbasic, hholds⟩ := CharArray.strcat_ok (CharArray.holds_zero (n := 256) (by decide))
    (s := lit "Basic  ") (by decide) (by decide)
  obtain ⟨clid, hclid, hclid'⟩ := CharArray.strcat_ok hholds h.notMem (by
    have hlen : ([] ++ lit "Basic  ").length = 7 := by decide
    omega)
  refine ⟨clid, ?_, hclid'⟩
  simp only [basicClientId, hbasic, bind, Except.bind, h.str_eq, hclid]

/-- A client id that is too long, or that has no end. -/
theorem basicClientId_error (h : ¬ ∃ c, clientId.Holds c ∧ c.length ≤ 248) :
    basicClientId clientId = .error .outOfBounds := by
  obtain ⟨basic, hbasic, hholds⟩ := CharArray.strcat_ok (CharArray.holds_zero (n := 256) (by decide))
    (s := lit "Basic  ") (by decide) (by decide)
  by_cases hc : ∃ c, clientId.Holds c
  · obtain ⟨c, hc⟩ := hc
    have hlong := CharArray.strcat_overflow (s := c) hholds (by
      have hlen : ([] ++ lit "Basic  ").length = 7 := by decide
      have hc' : ¬ c.length ≤ 248 := fun hle => h ⟨c, hc, hle⟩
      omega)
    simp only [basicClientId, hbasic, bind, Except.bind, hc.str_eq, hlong]
  · have hstr := CharArray.str_unterminated fun c hholds => hc ⟨c, hholds⟩
    simp only [basicClientId, hbasic, bind, Except.bind, hstr]

theorem listenClientId_ok (flags : Flags) (h : clientId.Holds c) (hfit : c.length ≤ 248) :
    ∃ clid s, listenClientId flags clientId = .ok clid ∧ clid.Holds s := by
  obtain ⟨clid, hclid, hholds⟩ := basicClientId_ok h hfit
  rw [listenClientId, hclid]
  cases hflag : flags.unauthorizedlisten with
  | true =>
    obtain ⟨clid', hclid', hholds'⟩ := CharArray.strcpy_ok (a := clid) (i := 0) (t := [])
      (s := lit "wrong-client-id") rfl (by decide) (by decide)
    exact ⟨clid', _, hclid', hholds'⟩
  | false => exact ⟨clid, _, rfl, hholds⟩

/-- Ids that are not too long are listened with. -/
theorem submitRequestListenV2_ok (flags : Flags) (hc : clientId.Holds c) (hp : pushId.Holds p)
    (hcfit : c.length ≤ 248) (hpfit : p.length < 220) :
    ∃ authorization, submitRequestListenV2 flags clientId pushId
      = .ok ⟨lit "/client/v2/" ++ p ++ lit "?min_ping_interval_sec=30", authorization⟩ := by
  have hlen : ([] ++ lit "/client/v2/").length = 11 := by decide
  have hlen' : (lit "?min_ping_interval_sec=30").length = 25 := by decide
  obtain ⟨path₁, hpath₁, hholds₁⟩ := CharArray.strcat_ok
    (CharArray.holds_zero (n := 256) (by decide)) (s := lit "/client/v2/") (by decide) (by decide)
  obtain ⟨path₂, hpath₂, hholds₂⟩ := CharArray.strcat_ok hholds₁ hp.notMem (by omega)
  obtain ⟨path₃, hpath₃, hholds₃⟩ := CharArray.strcat_ok hholds₂
    (s := lit "?min_ping_interval_sec=30") (by decide) (by
      rw [List.length_append]
      omega)
  obtain ⟨clid, s, hclid, hs⟩ := listenClientId_ok flags hc hcfit
  refine ⟨s, ?_⟩
  simp only [submitRequestListenV2, bind, Except.bind, hpath₁, hp.str_eq, hpath₂, hpath₃, hclid,
    hholds₃.str_eq, hs.str_eq]
  rfl

end

end Elephant.Client
