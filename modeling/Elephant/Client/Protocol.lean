import Elephant.Api.Admission
import Elephant.Api.BasicAuth
import Elephant.Api.Spdy
import Elephant.Client.Ack
import Elephant.Router.Routes

/-! What the worker makes of the requests of the test client.

        registered c p ──▶ updateClientPushId ──▶ GET /client/v2/p?min_ping_interval_sec=30   Basic  c
                                                    │ router
                                                    ╰──▶ Listen.handle   pushId p, client id c
        payload r ──▶ submit_request_pushack ──▶ POST /client/v2/ack   Basic  c   {"request_id":r,…}
                                                    │ router
                                                    ╰──▶ Ack.handle      client id c, request id r

    Both ends are the functions of the sources; in between are the header lines as bytes. -/

namespace Elephant.Client
open Elephant.Schemes Elephant.Schemes.C Elephant.Model Elephant.Router
open Elephant.Api (Library Config Request)

/-- What `spdylay_submit_request` is given, as far as a worker reads it. -/
structure SpdyRequest where
  method : String
  path : List UInt8
  headers : List (String × List UInt8)
  body : List UInt8

/-- The header lines of `submit_request_listenV2`. -/
def ListenRequest.spdy (r : ListenRequest) : SpdyRequest where
  method := "GET"
  path := r.path
  headers := [("accept", lit "application/json"), ("authorization", r.authorization)]
  body := []

/-- The header lines of `submit_request_pushack`, with the body that is read for it. -/
def AckRequest.spdy (r : AckRequest) (body : List UInt8) : SpdyRequest where
  method := "POST"
  path := lit "/client/v2/ack"
  headers := [("accept", lit "application/json"), ("authorization", r.authorization),
    ("content-type", lit "application/json")]
  body := body

/-- Bytes as a text. -/
def text (bs : List UInt8) : String := String.ofList (Utf8.decode bs)

/-- How a worker reads the line of a request: the router, and the values that `url.parse` finds for a
    parameter of the query. -/
structure UrlReading where
  router : RouterPackage
  queryValues : List Char → List Char → List String

/-- What is relied on: the laws of the router, and that a single parameter is found. -/
structure UrlReading.Lawful (U : UrlReading) : Prop where
  router : U.router.Lawful
  query_single : ∀ (ss : List (List Char)) (name value : List Char), ss ≠ [] → ss.all plain = true →
    plain name = true → '=' ∉ name → plain value = true →
    U.queryValues name (path ss ++ '?' :: (name ++ '=' :: value)) = [String.ofList value]

/-- The request that a handler gets, with the parameters of its route. -/
def received (U : UrlReading) (r : SpdyRequest) (params : Params) : Request where
  method := r.method
  headers := List.toAList (r.headers.map fun h => ⟨h.1, text h.2⟩)
  isSpdy := true
  minPingIntervalSec := U.queryValues "min_ping_interval_sec".toList (Utf8.decode r.path)
  body := text r.body
  pushId := String.ofList ((params.lookup "pushId".toList).getD [])

/-- The handler of a request at a worker, and what it gets. -/
def routed (U : UrlReading) (r : SpdyRequest) : Option (WorkerHandler × Request) :=
  (U.router.dispatch _ workerRoutes r.method (Utf8.decode r.path)).map fun found =>
    (found.1, received U r found.2)

/-! ### Texts -/

theorem text_lit (s : String) : text (lit s) = s := by
  rw [text, lit, Utf8.decode_encode, String.ofList_toList]

theorem text_append (a b : String) : text (lit a ++ lit b) = a ++ b := by
  rw [text, lit, lit, ← Utf8.encode_append, Utf8.decode_encode, ← String.toList_append,
    String.ofList_toList]

theorem visible_urlSafe {c : Char} (h : Base64.IsUrlSafe c) : 0x2B ≤ c.toNat ∧ c.toNat ≤ 0x7A := by
  rcases h with h | rfl | rfl | rfl
  · replace h : (decide (c.val ≥ 'A'.val ∧ c.val ≤ 'Z'.val) ||
      decide (c.val ≥ 'a'.val) && decide (c.val ≤ 'z'.val) ||
        decide (c.val ≥ '0'.val) && decide (c.val ≤ '9'.val)) = true := h
    simp only [Bool.or_eq_true, Bool.and_eq_true, decide_eq_true_eq, ge_iff_le,
      UInt32.le_iff_toNat_le] at h
    have hA : 'A'.val.toNat = 65 := rfl
    have hZ : 'Z'.val.toNat = 90 := rfl
    have ha : 'a'.val.toNat = 97 := rfl
    have hz : 'z'.val.toNat = 122 := rfl
    have h0 : '0'.val.toNat = 48 := rfl
    have h9 : '9'.val.toNat = 57 := rfl
    unfold Char.toNat
    omega
  · decide
  · decide
  · decide

/-- The expression skips both blanks. -/
theorem execBasic_blanks {code : List Char} (hne : code ≠ [])
    (h : ∀ c ∈ code, 0x2B ≤ c.toNat ∧ c.toNat ≤ 0x7A) :
    Api.execBasic ("Basic  ".toList ++ code) = some code := by
  have hspaces : ((' ' :: ' ' :: code).takeWhile Api.isSpace).length = 2 := by
    cases code with
    | nil => exact absurd rfl hne
    | cons c code =>
      have hc := Api.BasicAuth.isSpace_of_visible (h c List.mem_cons_self)
      have hblank : Api.isSpace ' ' = true := by decide
      simp [hblank, hc]
  have hgroup : code.takeWhile (fun c => !Api.isLineEnd c) = code := by
    refine List.takeWhile_eq_self_iff.mpr fun c hc => ?_
    simp [Api.BasicAuth.isLineEnd_of_visible (h c hc)]
  have hexec : Api.execBasic ("Basic  ".toList ++ code)
      = (Api.spacesThenGroup (' ' :: ' ' :: code) ((' ' :: ' ' :: code).takeWhile Api.isSpace).length).or
        (Api.execBasic ("asic  ".toList ++ code)) :=
    if_pos (List.prefix_append _ _)
  rw [hexec, hspaces, Api.spacesThenGroup]
  simp only [List.drop_succ_cons, List.drop_zero, hgroup, if_neg hne, Option.some_or]

theorem parseClientId_blanks {req : Request} {c : ClientId} (hc : ClientId.Generated c)
    (hreq : req.headers.lookup "authorization" = some ("Basic  " ++ c)) :
    Api.Validate.parseClientId req = .ok c := by
  obtain ⟨hlen, hsafe⟩ := hc.spec
  have hexec : Api.execBasic ("Basic  " ++ c).toList = some c.toList := by
    rw [String.toList_append]
    refine execBasic_blanks (fun hnil => ?_) fun x hx => visible_urlSafe (hsafe x hx)
    rw [hnil] at hlen
    exact absurd hlen (by decide)
  have hne : "Basic  " ++ c ≠ "" := fun h => by
    have hempty := congrArg String.toList h
    rw [String.toList_append] at hempty
    exact absurd (List.append_eq_nil_iff.mp hempty).1 (by decide)
  have hheader : Api.header req "authorization" = some ("Basic  " ++ c) := by
    rw [Api.header, hreq, Option.filter_some, if_pos (decide_eq_true hne)]
  simp only [Api.Validate.parseClientId, Api.Validate.parseBasicAuth, hheader, hexec,
    String.ofList_toList]

/-! ### Routes -/

section

variable {U : UrlReading} {R : RouterPackage} {p : PushId}

/-- The url of a listen. -/
def listenUrl (p : PushId) : List Char :=
  path ["client".toList, "v2".toList, p.toList]
    ++ '?' :: ("min_ping_interval_sec".toList ++ '=' :: "30".toList)

theorem plain_pushId (hp : PushId.Generated p) : plain p.toList = true := by
  obtain ⟨hlen, hsafe⟩ := hp.spec
  rw [plain, Bool.and_eq_true, List.all_eq_true]
  refine ⟨?_, fun c hc => ?_⟩
  · cases hchars : p.toList with
    | nil => rw [hchars] at hlen; exact absurd hlen (by decide)
    | cons c cs => rfl
  · simpa [Base64.IsUrlSafe, or_assoc] using hsafe c hc

theorem plain_listenPieces (hp : PushId.Generated p) :
    ["client".toList, "v2".toList, p.toList].all plain = true := by
  simp only [List.all_cons, List.all_nil, plain_pushId hp]
  decide

theorem execPieces_param (hR : R.Lawful) (a b name : List Char) {s : List Char} (hs : s ≠ []) :
    execPieces R.toPatterns [.text a, .text b, .param name] [a, b, s] = some [(name, R.decode s)] := by
  simp [execPieces, Piece.exec, hs, hR.same_self]

theorem execPieces_text (hR : R.Lawful) (a b c : List Char) :
    execPieces R.toPatterns [.text a, .text b, .text c] [a, b, c] = some [] := by
  simp [execPieces, Piece.exec, hR.same_self]

theorem pieces_listen (hR : R.Lawful) (hp : PushId.Generated p) :
    R.pieces (listenUrl p) = some ["client".toList, "v2".toList, p.toList] :=
  hR.pieces_path _ _ (by simp) (plain_listenPieces hp) (.inr rfl)

theorem exec_listen (hR : R.Lawful) (hp : PushId.Generated p) :
    listenRoute.exec R.toPatterns "GET" (listenUrl p) = some [("pushId".toList, p.toList)] := by
  have hplain := plain_pushId hp
  have hpercent : '%' ∉ p.toList := fun hmem => absurd (hp.spec.2 _ hmem) (by decide)
  have hbound : R.bound listenRoute.method "GET" = true := hR.all_get
  rw [Route.exec, if_pos hbound, pieces_listen hR hp, Option.bind_some, compile_listen hR,
    execPieces_param hR _ _ _ (ne_nil_of_plain hplain), hR.decode_plain _ hpercent]

/-- A push id is longer than the other names, so that it can only be listened at. -/
theorem dispatch_listen (hR : R.Lawful) (hp : PushId.Generated p) :
    R.dispatch _ workerRoutes "GET" (listenUrl p) = some (.listen, [("pushId".toList, p.toList)]) := by
  have hexec := exec_listen hR hp
  have hmatch : listenRoute.Matches R.toPatterns "GET" (listenUrl p) = true := by
    rw [Route.Matches, hexec]
    rfl
  have hfixed : ∀ r ∈ fixedRoutes, r.Matches R.toPatterns "GET" (listenUrl p) = false := by
    intro r hr
    by_contra hmatch
    obtain ⟨-, ss, hss, hall⟩ := Route.matches_iff.mp (by simpa using hmatch)
    obtain rfl := Option.some.inj ((pieces_listen hR hp).symm.trans hss)
    obtain ⟨-, -, name, -, hshort, hpattern, -⟩ := fixedRoutes_spec hr
    rw [compile_worker hR (fixedRoutes_subset hr), hpattern] at hall
    simp only [List.forall₂_cons, Piece.Matches] at hall
    have hsame := hR.same_length _ _ hall.2.2.1
    have hlong := hp.spec.1
    omega
  have hprofile : profileRoute.Matches R.toPatterns "GET" (listenUrl p) = false :=
    worker_not_matches hR (by decide) hmatch profileRoute (by decide) (by decide)
  have hfilter : workerRoutes.filter (Route.Matches R.toPatterns "GET" (listenUrl p)) = [listenRoute] := by
    simp only [fixedRoutes, List.forall_mem_cons] at hfixed
    simp [workerRoutes, hfixed, hmatch, hprofile]
  obtain ⟨params, hparams, hfirst⟩ := firstMatch_first hfilter
  rw [hexec] at hparams
  rw [hR.first_match, hfirst, ← Option.some.inj hparams]
  rfl

theorem dispatch_ack (hR : R.Lawful) :
    R.dispatch _ workerRoutes "POST" "/client/v2/ack".toList = some (.ack, []) := by
  have hfixed : ackRoute ∈ fixedRoutes := List.mem_cons_self
  obtain ⟨params, hparams, hfirst⟩ :=
    firstMatch_first (filter_of_fixed hR hfixed (matches_url hR hfixed hR.all_post))
  have hurl : ackRoute.url.toList = path ["client".toList, "v2".toList, "ack".toList] ++ [] := by decide
  have hpieces : R.pieces ackRoute.url.toList = some ["client".toList, "v2".toList, "ack".toList] := by
    rw [hurl]
    exact hR.pieces_path _ _ (by decide) (by decide) (.inl rfl)
  have hcompile : R.compile ackRoute.url = [.text "client".toList, .text "v2".toList,
      .text "ack".toList] := (compile_worker hR (fixedRoutes_subset hfixed)).trans (by decide)
  have hbound : R.bound ackRoute.method "POST" = true := hR.all_post
  rw [Route.exec, if_pos hbound, hpieces, Option.bind_some, hcompile, execPieces_text hR] at hparams
  obtain rfl := Option.some.inj hparams
  rw [hR.first_match]
  exact hfirst

theorem queryValues_listen (hU : U.Lawful) (hp : PushId.Generated p) :
    U.queryValues "min_ping_interval_sec".toList (listenUrl p) = ["30"] :=
  (hU.query_single _ _ _ (by simp) (plain_listenPieces hp) (by decide) (by decide) (by decide)).trans
    (by rw [String.ofList_toList])

end

/-! ### A reading that keeps the laws -/

/-- The text behind the first `a`. -/
def behind (a : Char) (s : List Char) : List Char := (s.dropWhile (· ≠ a)).drop 1

/-- The values of a parameter, nothing decoded. -/
def plainQueryValues (name url : List Char) : List String :=
  ((behind '?' url).splitOn '&').filterMap fun pair =>
    if pair.takeWhile (· ≠ '=') = name then some (String.ofList (behind '=' pair)) else none

def exactReading : UrlReading := ⟨exactRouter, plainQueryValues⟩

theorem behind_append {a : Char} {front : List Char} (h : a ∉ front) (rest : List Char) :
    behind a (front ++ a :: rest) = rest := by
  have hall : (front ++ a :: rest).takeWhile (· ≠ a) ++ (front ++ a :: rest).dropWhile (· ≠ a)
      = front ++ a :: rest := List.takeWhile_append_dropWhile
  rw [takeWhile_eq_front h (.inr rfl)] at hall
  rw [behind, List.append_cancel_left hall, List.drop_one, List.tail_cons]

theorem exactReading_lawful : exactReading.Lawful where
  router := exactRouter_lawful
  query_single ss name value _ hss hname hequals hvalue := by
    have hpath : '?' ∉ path ss := notMem_path (by decide) (by decide) (List.all_eq_true.mp hss)
    have hpairs : '&' ∉ name ++ '=' :: value := by
      rw [List.mem_append, List.mem_cons]
      rintro (hmem | hmem | hmem)
      · exact notMem_of_plain (by decide) hname hmem
      · exact absurd hmem (by decide)
      · exact notMem_of_plain (by decide) hvalue hmem
    show plainQueryValues name _ = _
    rw [plainQueryValues, behind_append hpath, List.splitOn_eq_singleton hpairs, List.filterMap_cons,
      List.filterMap_nil, takeWhile_eq_front hequals (.inr rfl), if_pos rfl, behind_append hequals]

/-! ### Listens -/

/-- A listen of client `c` under push id `p`: it opens a session and tells the master of it, or it is
    refused and nothing changes. -/
structure ListensAs (L : Library) (config : Config) (c : ClientId) (p : PushId) (req : Request) :
    Prop where
  admitted : ∀ db now socket w, Api.Listen.Admitted L config c p db →
    Api.Listen.handle L config req db now socket w
      = (w.listen now ⟨socket, c, p, true⟩, some (Api.Listen.complete config
        (.ok (Api.Listen.pingIntervalSec config.MIN_SOCKET_TIMEOUT_SEC (.fin 30)))))
  refused : ∀ db now socket w, ¬ Api.Listen.Admitted L config c p db → ∃ e, Api.HttpFailure e ∧
    Api.Listen.handle L config req db now socket w = (w, some (Api.Listen.complete config (.error e)))

/-- What a listen of the client looks like at the worker. -/
structure ListenHeaders (c : ClientId) (p : PushId) (req : Request) : Prop where
  method : req.method = "GET"
  isSpdy : req.isSpdy = true
  accept : req.headers.lookup "accept" = some "application/json"
  authorization : req.headers.lookup "authorization" = some ("Basic  " ++ c)
  minPing : req.minPingIntervalSec = ["30"]
  pushId : req.pushId = p

section

variable {L : Library} {config : Config} {c : ClientId} {p : PushId} {req : Request}

theorem isSpdy_ok (h : req.isSpdy = true) : Api.Validate.isSpdy config req = .ok () := by
  simp [Api.Validate.isSpdy, h]

theorem acceptsJson_ok (h : req.headers.lookup "accept" = some "application/json") :
    Api.Validate.acceptsJson req = .ok () := by
  have hheader : Api.header req "accept" = some "application/json" := by
    rw [Api.header, h]
    rfl
  have hincludes : Api.includesText "application/json" "application/json" = true :=
    decide_eq_true List.infix_rfl
  simp only [Api.Validate.acceptsJson, hheader, hincludes, if_true]

theorem ListenHeaders.wellFormed (h : ListenHeaders c p req) (hc : ClientId.Generated c)
    (h30 : L.numbers.ofText "30" = .fin 30) :
    Api.Listen.WellFormed L config req c (.fin 30) where
  isSpdy := isSpdy_ok h.isSpdy
  isGet := by simp [Api.Validate.isGet, Api.Validate.isMethodSupported, h.method]
  acceptsJson := acceptsJson_ok h.accept
  clientId := parseClientId_blanks hc h.authorization
  given := by rw [h.minPing]; rfl
  interval := by rw [h.minPing]; exact h30
  positive := by decide

theorem ListenHeaders.listensAs (h : ListenHeaders c p req) (hc : ClientId.Generated c)
    (hunit : config.NODE_ENV ≠ some "unit") (h30 : L.numbers.ofText "30" = .fin 30) :
    ListensAs L config c p req := by
  have hform : Api.Listen.WellFormed L config req c (.fin 30) := h.wellFormed hc h30
  refine ⟨fun db now socket w hadmitted => ?_, fun db now socket w hrefused => ?_⟩
  · rcases Api.Listen.handle_cases L hunit req db now socket w with
      ⟨c', n, haccepts, hhandle⟩ | ⟨hnot, -⟩
    · obtain rfl : c' = c := Except.ok.inj (haccepts.1.clientId.symm.trans hform.clientId)
      obtain rfl : n = .fin 30 := haccepts.1.interval.symm.trans hform.interval
      rw [hhandle, h.pushId, h.isSpdy]
    · exact absurd ⟨hform, h.pushId ▸ hadmitted⟩ (hnot c (.fin 30))
  · rcases Api.Listen.handle_cases L hunit req db now socket w with
      ⟨c', n, haccepts, -⟩ | ⟨-, e, he, hhandle⟩
    · obtain rfl : c' = c := Except.ok.inj (haccepts.1.clientId.symm.trans hform.clientId)
      exact absurd (h.pushId ▸ haccepts.2) hrefused
    · exact ⟨e, he, hhandle⟩

end

/-- The digest of the service, and how it reads the interval that the client asks for. -/
structure Serves (L : Library) (config : Config) : Prop where
  digest : ∃ sha1 : String → List UInt8, (∀ data, (sha1 data).length = 20) ∧
    L.shaDigest = PushId.shaDigest sha1
  interval : L.numbers.ofText "30" = .fin 30
  notUnit : config.NODE_ENV ≠ some "unit"

/-- A client that has no ids yet and that will listen with those it gets. -/
structure Listening (flags : Flags) (t : ThreadUri) : Prop where
  notUnit : flags.unitmode = false
  mode : flags.fullmode = true ∨ flags.refreshmode = true
  authorized : flags.unauthorizedlisten = false
  empty : (known flags t).Holds []

section

variable {L : Library} {config : Config} {c c' : ClientId} {p : PushId} {flags : Flags} {t : ThreadUri}

theorem checks_register {σ : Type} (registration : Request) (generated : ClientId) :
    Async.Checks (fun ids => ids = (generated, Refresh.generatePushId L.shaDigest config.SALT generated 0))
      (Api.Register.tasks L config registration generated : Async σ _ _) := by
  have hvalidate : Async.Checks (fun _ => True)
      (Api.Register.validate L config registration : Async σ _ _) := by
    unfold Api.Register.validate
    refine (Async.checks_lift _).bind fun _ _ => (Async.checks_lift _).bind fun _ _ =>
      (Async.checks_lift _).bind fun _ _ => (Async.checks_lift _).bind fun _ _ =>
      (Async.checks_lift _).bind fun _ _ => (Async.checks_lift _).bind fun body _ => ?_
    exact (Async.checks_liftThrow _).mono fun _ _ => trivial
  refine hvalidate.bind fun _ _ => (Async.checks_lift _).bind fun c hc s => .inr (.inr ⟨_, ?_, rfl⟩)
  rw [Api.Register.generateClientId] at hc
  split_ifs at hc
  rw [← Except.ok.inj hc]
  rfl

/-- What is registered is the id that was generated, with the push id for the count 0. -/
theorem eq_of_registered {registration : Request} {generated : ClientId}
    (h : (Api.Register.handle L config registration generated ()).2
      = some (Answer.registered c p).outputs) :
    c = generated ∧ p = Refresh.generatePushId L.shaDigest config.SALT generated 0 := by
  have htasks : Async.Checks (σ := Unit) _ (Api.Register.tasks L config registration generated) :=
    checks_register registration generated
  rw [Api.Register.handle] at h
  rcases htasks () with hs | ⟨e, hs⟩ | ⟨ids, rfl, hs⟩ <;> rw [hs] at h
  · simp [Api.finish] at h
  · simp [Api.finish, Api.Register.complete, Answer.outputs] at h
  · simp only [Api.finish, Api.Register.complete, Answer.outputs, List.flatMap_cons, List.flatMap_nil,
      List.append_nil] at h
    simpa [eq_comm] using h

theorem authorization_of_submit {clientId pushId : CharArray 256} {request : ListenRequest}
    {s : List UInt8} (hflag : flags.unauthorizedlisten = false) (hs : clientId.Holds s)
    (hfit : s.length ≤ 248) (h : submitRequestListenV2 flags clientId pushId = .ok request) :
    request.authorization = lit "Basic  " ++ s := by
  obtain ⟨basic, hbasic, hholds⟩ := basicClientId_ok hs hfit
  have hlisten : listenClientId flags clientId = .ok basic := by
    rw [listenClientId, hbasic, hflag]
    rfl
  rw [submitRequestListenV2] at h
  obtain ⟨path₁, -, h₁⟩ := Api.bind_eq_ok.mp h
  obtain ⟨id, -, h₂⟩ := Api.bind_eq_ok.mp h₁
  obtain ⟨path₂, -, h₃⟩ := Api.bind_eq_ok.mp h₂
  obtain ⟨path₃, -, h₄⟩ := Api.bind_eq_ok.mp h₃
  obtain ⟨clid, hclid, h₅⟩ := Api.bind_eq_ok.mp h₄
  obtain ⟨path, -, h₆⟩ := Api.bind_eq_ok.mp h₅
  obtain ⟨authorization, hstr, h₇⟩ := Api.bind_eq_ok.mp h₆
  rw [← Except.ok.inj (hlisten.symm.trans hclid), hholds.str_eq] at hstr
  rw [← Except.ok.inj h₇, ← Except.ok.inj hstr]

/-- The listen that follows a registration. -/
theorem updateClientPushId_registered (h : Listening flags t) (hc : ClientId.Generated c)
    (hp : PushId.Generated p) (rest : Memory) :
    ∃ t', updateClientPushId flags t ((Answer.registered c p).body L.numbers ++ 0 :: rest)
        = .ok (t', some ⟨lit "/client/v2/" ++ lit p ++ lit "?min_ping_interval_sec=30",
          lit "Basic  " ++ lit c⟩) ∧
      t'.clientId.Holds (lit c) ∧ t'.pushId.Holds (lit p) := by
  obtain ⟨hclen, hcsafe⟩ := hc.spec
  obtain ⟨hplen, hpsafe⟩ := hp.spec
  have hcfit : (lit c).length ≤ 248 := by rw [length_lit_urlSafe hcsafe]; omega
  obtain ⟨clientId, hclientId, hcholds⟩ :=
    getClientId_registered L.numbers rest t.clientId hcsafe (by omega) hpsafe
  obtain ⟨pushId, hpushId, hpholds⟩ :=
    getPushId_registered L.numbers rest t.pushId hcsafe hpsafe (by omega)
  obtain ⟨authorization, hrequest⟩ := submitRequestListenV2_ok flags hcholds hpholds hcfit
    (by rw [length_lit_urlSafe hpsafe]; omega)
  obtain rfl : authorization = lit "Basic  " ++ lit c :=
    authorization_of_submit h.authorized hcholds hcfit hrequest
  refine ⟨{ t with clientId := clientId, pushId := pushId }, ?_, hcholds, hpholds⟩
  rw [updateClientPushId_eq h.notUnit h.mode, obtainUnless_empty _ _ _ h.empty]
  simp only [obtainIds, hclientId, bind, Except.bind, hpushId, hrequest]
  rfl

theorem routed_eq {U : UrlReading} {r : SpdyRequest} {url : List Char} {handler : WorkerHandler}
    {params : Params} (hurl : Utf8.decode r.path = url)
    (h : U.router.dispatch _ workerRoutes r.method url = some (handler, params)) :
    routed U r = some (handler, received U r params) := by
  rw [routed, hurl, h, Option.map_some]

/-- The ids are those of the client. -/
theorem listenHeaders_received {U : UrlReading} (hU : U.Lawful) {r : ListenRequest}
    (hp : PushId.Generated p) (hurl : Utf8.decode r.path = listenUrl p)
    (hauth : r.authorization = lit "Basic  " ++ lit c) :
    ListenHeaders c p (received U r.spdy [("pushId".toList, p.toList)]) where
  method := rfl
  isSpdy := rfl
  accept := congrArg some (text_lit "application/json")
  authorization := by
    have htext : text r.authorization = "Basic  " ++ c := by rw [hauth, text_append]
    exact congrArg some htext
  minPing := (congrArg (U.queryValues _) hurl).trans (queryValues_listen hU hp)
  pushId := String.ofList_toList

theorem decode_listen (p : PushId) :
    Utf8.decode (lit "/client/v2/" ++ lit p ++ lit "?min_ping_interval_sec=30") = listenUrl p := by
  have hfront : "/client/v2/".toList ++ p.toList = path ["client".toList, "v2".toList, p.toList] := by
    have hslashes : "/client/v2/".toList = '/' :: ("client".toList ++ '/' :: ("v2".toList ++ ['/'])) := by
      decide
    simp only [hslashes, path, List.flatMap_cons, List.flatMap_nil, List.append_nil, List.cons_append,
      List.append_assoc, List.nil_append]
  have hquery : "?min_ping_interval_sec=30".toList
      = '?' :: ("min_ping_interval_sec".toList ++ '=' :: "30".toList) := by decide
  have hdecode (a b d : String) : Utf8.decode (lit a ++ lit b ++ lit d)
      = a.toList ++ b.toList ++ d.toList := by
    rw [lit, lit, lit, ← Utf8.encode_append, ← Utf8.encode_append, Utf8.decode_encode]
  rw [hdecode, hfront, hquery, listenUrl]

end

/-- For every registration that succeeds, every client that waits for it and whatever is in memory
    behind the NUL that ends the answer: the client listens with the ids that were issued, and the worker
    takes the listen for one of these ids. -/
theorem listen_understood (U : UrlReading) (hU : U.Lawful) (L : Library) (config : Config)
    (hserves : Serves L config) (flags : Flags) (t : ThreadUri) (hlistening : Listening flags t)
    (registration : Request) (generated : ClientId) (hgenerated : ClientId.Generated generated)
    (c : ClientId) (p : PushId)
    (hregistered : (Api.Register.handle L config registration generated ()).2
      = some (Answer.registered c p).outputs) (rest : Memory) :
    p = Refresh.generatePushId L.shaDigest config.SALT c 0 ∧
      ∃ t' request req,
        updateClientPushId flags t ((Answer.registered c p).body L.numbers ++ 0 :: rest)
            = .ok (t', some request) ∧
          t'.clientId.Holds (lit c) ∧ t'.pushId.Holds (lit p) ∧
          routed U request.spdy = some (.listen, req) ∧ ListensAs L config c p req := by
  obtain ⟨rfl, hpush⟩ := eq_of_registered hregistered
  have hp : PushId.Generated p := by
    obtain ⟨sha1, hlen, hdigest⟩ := hserves.digest
    exact ⟨sha1, config.SALT, c, 0, hlen, by rw [hpush, hdigest, generatePushId_eq]⟩
  obtain ⟨t', hupdate, hclient, hid⟩ :=
    updateClientPushId_registered (L := L) hlistening hgenerated hp rest
  refine ⟨hpush, t', _, _, hupdate, hclient, hid,
    routed_eq (decode_listen p) (dispatch_listen hU.router hp), ?_⟩
  exact (listenHeaders_received hU hp (decode_listen p) rfl).listensAs hgenerated hserves.notUnit
    hserves.interval

/-- A service whose digests are all zero and that reads what the requests below have in them. -/
def zeroLibrary : Library where
  numbers := ⟨fun _ => "", fun text => if text = "30" then .fin 30 else .nan⟩
  urlParse _ := .ok none
  jsonParse _ := .ok (.obj (Api.Register.METADATA_KEYS.map fun key => (key, .null)))
  base64Decode text := text
  shaDigest := PushId.shaDigest fun _ => List.replicate 20 0
  aesEncrypt _ := .error .library

theorem serves_zeroLibrary : Serves zeroLibrary .default where
  digest := ⟨fun _ => List.replicate 20 0, fun _ => List.length_replicate, rfl⟩
  interval := rfl
  notUnit := by decide

def someRegistration : Request where
  method := "POST"
  headers := List.toAList [⟨"content-type", "application/json"⟩, ⟨"authorization", "Basic root:letmein"⟩]
  isSpdy := true
  minPingIntervalSec := []
  body := ""
  pushId := ""

theorem registered_zero : (Api.Register.handle zeroLibrary .default someRegistration zeroClientId ()).2
    = some (Answer.registered zeroClientId zeroPushId).outputs := by
  have hvalidate : Api.Register.validate zeroLibrary .default someRegistration ()
      = ((), .calls [.ok ()]) := rfl
  have hclient : Api.Register.generateClientId zeroClientId = .ok zeroClientId := if_neg (by decide)
  have htasks : Api.Register.tasks zeroLibrary .default someRegistration zeroClientId ()
      = ((), .calls [.ok (zeroClientId, zeroPushId)]) := by
    rw [Api.Register.tasks, Async.bind_apply, Async.bind, hvalidate]
    simp only [Async.proceed_one, hclient, Async.lift_ok_bind, Async.pure_apply]
    rfl
  rw [Api.Register.handle, htasks]
  rfl

theorem listening_freshThread : Listening fullMode freshThread :=
  ⟨rfl, .inl rfl, rfl, CharArray.holds_zero (by decide)⟩

/-- A fresh client listens with the first ids of a service. -/
theorem listen_understood_fresh : exactReading.Lawful ∧ Serves zeroLibrary .default ∧
    Listening fullMode freshThread ∧
    ∃ t' request req, updateClientPushId fullMode freshThread
          ((Answer.registered zeroClientId zeroPushId).body zeroLibrary.numbers ++ 0 :: [])
            = .ok (t', some request) ∧
        routed exactReading request.spdy = some (.listen, req) ∧
        ListensAs zeroLibrary .default zeroClientId zeroPushId req := by
  obtain ⟨-, t', request, req, hupdate, -, -, hrouted, hlistens⟩ :=
    listen_understood exactReading exactReading_lawful zeroLibrary .default serves_zeroLibrary fullMode
      freshThread listening_freshThread someRegistration zeroClientId generated_zeroClientId _ _
      registered_zero []
  exact ⟨exactReading_lawful, serves_zeroLibrary, listening_freshThread, t', request, req, hupdate,
    hrouted, hlistens⟩

/-! ### Acks -/

/-- The own timer of client `c` under request id `r`. -/
def Timed (db : Api.AckAnswers) (c : ClientId) (r : String) (push : Push.PushMsg) : Prop :=
  ∃ session, db.getSession c = some (.own session) ∧ db.getPushTimer session r = some (.own push)

/-- A push that waits for its ack, and its row. -/
structure Awaited (db : Api.AckAnswers) (c : ClientId) (r : String) (push : Push.PushMsg)
    (row : Push.PushRequest) : Prop where
  clientId : db.revokedClientId = .ok none
  timer : Timed db c r push
  row : db.pushRequest = .ok (some row)

/-- Sessions and timers are in plain objects: only under the names that all objects inherit is there
    something inherited. -/
structure OfTables (db : Api.AckAnswers) : Prop where
  session : ∀ c, db.getSession c = some .inherited → c ∈ protoNames
  timer : ∀ session r, db.getPushTimer session r = some .inherited → r ∈ protoNames

/-- An ack of client `c` for request id `r`: a push that waits for it gets its callback. Otherwise no
    callback is started and the answer is an error, and no other push is cancelled in either case. -/
structure AcksAs (L : Library) (config : Config) (c : ClientId) (r : String) (req : Request) :
    Prop where
  awaited : ∀ db s push row, Awaited db c r push row →
    Api.Ack.handle L config req db s
      = (⟨s.cancelled ++ [push], s.callbacks ++ [row]⟩, some (Api.Ack.complete (.ok ())))
  refused : ∀ db s, OfTables db → (∀ push row, ¬ Awaited db c r push row) →
    (Api.Ack.handle L config req db s).1.callbacks = s.callbacks ∧
      ∃ e, Api.HttpFailure e ∧
        (Api.Ack.handle L config req db s).2 = some (Api.Ack.complete (.error e))
  own : ∀ db s, ∀ push ∈ (Api.Ack.handle L config req db s).1.cancelled,
    push ∈ s.cancelled ∨ Timed db c r push

/-- What an ack of the client looks like at the worker. -/
structure AckHeaders (L : Library) (c : ClientId) (r : String) (req : Request) : Prop where
  method : req.method = "POST"
  isSpdy : req.isSpdy = true
  contentType : req.headers.lookup "content-type" = some "application/json"
  authorization : req.headers.lookup "authorization" = some ("Basic  " ++ c)
  body : ∃ v, Api.Validate.parseJson L req = .ok v ∧
    Api.Ack.parseRequestId v = .ok (.ok (some (.str r)))

section

variable {L : Library} {config : Config} {c : ClientId} {r : String} {req : Request}

theorem isJson_ok (h : req.headers.lookup "content-type" = some "application/json") :
    Api.Validate.isJson req = .ok () := by
  have hheader : Api.header req "content-type" = some "application/json" := by
    rw [Api.header, h]
    rfl
  have hincludes : Api.includesText "application/json" "application/json" = true :=
    decide_eq_true List.infix_rfl
  simp only [Api.Validate.isJson, hheader, hincludes, if_true]

theorem AckHeaders.validate_eq {σ : Type} (h : AckHeaders L c r req) (hc : ClientId.Generated c)
    (db : Api.AckAnswers) (s : σ) :
    Api.Ack.validate L config req db s = (s, .calls
      [(Api.Validate.validateRevokedClientId db.revokedClientId).map fun _ => (c, .str r)]) := by
  have hpost : Api.Validate.isPost req = .ok () := by
    simp [Api.Validate.isPost, Api.Validate.isMethodSupported, h.method]
  obtain ⟨v, hparse, hid⟩ := h.body
  unfold Api.Ack.validate
  simp only [isSpdy_ok h.isSpdy, hpost, isJson_ok h.contentType,
    parseClientId_blanks hc h.authorization, Async.lift_ok_bind]
  rcases Api.Validate.validateRevokedClientId db.revokedClientId with e | ⟨⟩
  · rfl
  · simp only [hparse, hid, Async.lift_ok_bind, Async.liftThrow, Async.pure_apply]
    rfl

/-- What is left of an ack once its client is admitted. -/
theorem AckHeaders.tasks_eq (h : AckHeaders L c r req) (hc : ClientId.Generated c)
    {db : Api.AckAnswers} (hdb : db.revokedClientId = .ok none) (s : Api.AckEffects) :
    Api.Ack.tasks L config req db s = (do
      let _ ← Api.Ack.cancelPushTimer L db c (.str r)
      let row ← Async.lift (Api.Ack.getPushRequest db)
      Api.Ack.sendCallback row : Async Api.AckEffects _ _) s := by
  rw [Api.Ack.tasks, Async.bind_apply, Async.bind, h.validate_eq hc, hdb]
  simp only [Except.map, Api.Validate.validateRevokedClientId, Api.Validate.validateRevoked,
    Async.proceed_one]

/-- An ack finds something inherited where it looks for the session or for the timer. -/
def Inherits (db : Api.AckAnswers) (c : ClientId) (r : String) : Prop :=
  db.getSession c = some .inherited ∨ ∃ session, db.getPushTimer session r = some .inherited

theorem OfTables.not_inherits {db : Api.AckAnswers} (h : OfTables db) (hc : c ∉ protoNames)
    (hr : r ∉ protoNames) : ¬ Inherits db c r := by
  rintro (hsession | ⟨session, htimer⟩)
  · exact hc (h.session c hsession)
  · exact hr (h.timer session r htimer)

theorem cancelPushTimer_cases (L : Library) (db : Api.AckAnswers) (c : ClientId) (r : String)
    (s : Api.AckEffects) :
    (∃ push, Timed db c r push ∧ Api.Ack.cancelPushTimer L db c (.str r) s
        = ({ s with cancelled := s.cancelled ++ [push] }, .calls [.ok push])) ∨
      (∀ push, ¬ Timed db c r push) ∧
        (Inherits db c r ∧ Api.Ack.cancelPushTimer L db c (.str r) s = (s, .throws) ∨
          ∃ e, Api.HttpFailure e ∧ Api.Ack.cancelPushTimer L db c (.str r) s
            = (s, .calls [.error e])) := by
  have hname : Json.toText L.numbers (.str r) = .ok r := rfl
  unfold Api.Ack.cancelPushTimer Timed
  rcases hsession : db.getSession c with _ | (session | _)
  · exact .inr ⟨by simp, .inr ⟨_, by decide, rfl⟩⟩
  · rcases htimer : db.getPushTimer session r with _ | (push | _)
    · refine .inr ⟨by simp [htimer], .inr ⟨⟨404, "push timed out or unknown request id"⟩, by decide, ?_⟩⟩
      simp only [hname, htimer]
    · refine .inl ⟨push, ⟨session, rfl, htimer⟩, ?_⟩
      simp only [hname, htimer]
    · refine .inr ⟨by simp [htimer], .inl ⟨.inr ⟨session, htimer⟩, ?_⟩⟩
      simp only [hname, htimer]
  · exact .inr ⟨by simp, .inl ⟨.inl hsession, rfl⟩⟩

theorem getPushRequest_error {db : Api.AckAnswers} {e : Push.HttpError}
    (h : Api.Ack.getPushRequest db = .error e) :
    Api.HttpFailure e ∧ ∀ row, db.pushRequest ≠ .ok (some row) := by
  unfold Api.Ack.getPushRequest at h
  rcases hrow : db.pushRequest with message | (_ | row) <;> rw [hrow] at h
  · rw [← Except.error.inj h]
    exact ⟨by decide, by simp⟩
  · rw [← Except.error.inj h]
    exact ⟨by decide, by simp⟩
  · exact absurd h (by simp)

theorem getPushRequest_ok {db : Api.AckAnswers} {row : Push.PushRequest}
    (h : Api.Ack.getPushRequest db = .ok row) : db.pushRequest = .ok (some row) := by
  unfold Api.Ack.getPushRequest at h
  rcases hrow : db.pushRequest with message | (_ | row) <;> rw [hrow] at h
  · exact absurd h (by simp)
  · exact absurd h (by simp)
  · rw [Except.ok.inj h]

/-- What an ack can come to. -/
inductive Acked (db : Api.AckAnswers) (c : ClientId) (r : String) (s : Api.AckEffects) :
    Api.AckEffects × Option (List Api.Output) → Prop
  | awaited {push : Push.PushMsg} {row : Push.PushRequest} (h : Awaited db c r push row) :
    Acked db c r s (⟨s.cancelled ++ [push], s.callbacks ++ [row]⟩, some (Api.Ack.complete (.ok ())))
  | refused {e : Push.HttpError} (he : Api.HttpFailure e) (h : ∀ push row, ¬ Awaited db c r push row) :
    Acked db c r s (s, some (Api.Ack.complete (.error e)))
  | thrown (hinherits : Inherits db c r) (h : ∀ push row, ¬ Awaited db c r push row) :
    Acked db c r s (s, none)
  | rowless {e : Push.HttpError} {push : Push.PushMsg} (he : Api.HttpFailure e)
      (htimer : Timed db c r push) (h : ∀ push row, ¬ Awaited db c r push row) :
    Acked db c r s (⟨s.cancelled ++ [push], s.callbacks⟩, some (Api.Ack.complete (.error e)))

/-- The row is looked at after the timer is cancelled. -/
theorem AckHeaders.acked (h : AckHeaders L c r req) (hc : ClientId.Generated c) (db : Api.AckAnswers)
    (s : Api.AckEffects) : Acked db c r s (Api.Ack.handle L config req db s) := by
  rw [Api.Ack.handle]
  by_cases hdb : db.revokedClientId = .ok none
  · rw [h.tasks_eq hc hdb, Async.bind_apply, Async.bind]
    rcases cancelPushTimer_cases L db c r s with ⟨push, htimer, hcancel⟩ | ⟨hnone, hcancel⟩
    · rw [hcancel]
      simp only [Async.proceed_one]
      cases hrow : Api.Ack.getPushRequest db with
      | error e =>
        obtain ⟨he, hmissing⟩ := getPushRequest_error hrow
        exact .rowless he htimer fun _ row haw => hmissing row haw.row
      | ok row =>
        rw [Async.lift_ok_bind]
        exact .awaited ⟨hdb, htimer, getPushRequest_ok hrow⟩
    · have hnot : ∀ push row, ¬ Awaited db c r push row := fun push row haw => hnone push haw.timer
      rcases hcancel with ⟨hinherits, hcancel⟩ | ⟨e, he, hcancel⟩ <;> rw [hcancel]
      · exact .thrown hinherits hnot
      · exact .refused he hnot
  · have hnot : ∀ push row, ¬ Awaited db c r push row := fun push row haw => hdb haw.clientId
    cases hids : Api.Validate.validateRevokedClientId db.revokedClientId with
    | ok u => exact absurd (Api.Listen.validateRevoked_ok.mp hids) hdb
    | error e =>
      have he : Api.HttpFailure e := Api.Validate.refusing_validateRevoked (by decide) _ e hids
      rw [Api.Ack.tasks, Async.bind_apply, Async.bind, h.validate_eq hc, hids]
      exact .refused he hnot

/-- There is one such push, and one row. -/
theorem Awaited.unique {db : Api.AckAnswers} {push push' : Push.PushMsg} {row row' : Push.PushRequest}
    (h : Awaited db c r push row) (h' : Awaited db c r push' row') : push' = push ∧ row' = row := by
  obtain ⟨session, hsession, htimer⟩ := h.timer
  obtain ⟨session', hsession', htimer'⟩ := h'.timer
  obtain rfl : session' = session := by
    rw [hsession] at hsession'
    simpa using hsession'.symm
  rw [htimer] at htimer'
  have hrow := h.row.symm.trans h'.row
  exact ⟨by simpa using htimer'.symm, by simpa using hrow.symm⟩

theorem AckHeaders.acksAs (h : AckHeaders L c r req) (hc : ClientId.Generated c)
    (hr : r ∉ protoNames) : AcksAs L config c r req := by
  refine ⟨fun db s push row haw => ?_, fun db s htables hnot => ?_, fun db s push hpush => ?_⟩
  · have hacked : Acked db c r s (Api.Ack.handle L config req db s) := h.acked hc db s
    generalize Api.Ack.handle L config req db s = result at hacked ⊢
    cases hacked with
    | awaited haw' =>
      obtain ⟨rfl, rfl⟩ := haw.unique haw'
      rfl
    | refused he hnot => exact absurd haw (hnot push row)
    | thrown _ hnot => exact absurd haw (hnot push row)
    | rowless he htimer hnot => exact absurd haw (hnot push row)
  · have hacked : Acked db c r s (Api.Ack.handle L config req db s) := h.acked hc db s
    generalize Api.Ack.handle L config req db s = result at hacked ⊢
    cases hacked with
    | awaited haw => exact absurd haw (hnot _ _)
    | refused he _ => exact ⟨rfl, _, he, rfl⟩
    | thrown hinherits _ => exact absurd hinherits (htables.not_inherits hc.notMem_protoNames hr)
    | rowless he _ _ => exact ⟨rfl, _, he, rfl⟩
  · have hacked : Acked db c r s (Api.Ack.handle L config req db s) := h.acked hc db s
    generalize Api.Ack.handle L config req db s = result at hacked hpush
    cases hacked with
    | awaited haw =>
      rcases List.mem_append.mp hpush with hold | hnew
      · exact .inl hold
      · exact .inr (List.mem_singleton.mp hnew ▸ haw.timer)
    | refused _ _ => exact .inl hpush
    | thrown _ _ => exact .inl hpush
    | rowless _ htimer _ =>
      rcases List.mem_append.mp hpush with hold | hnew
      · exact .inl hold
      · exact .inr (List.mem_singleton.mp hnew ▸ htimer)

end

theorem authorization_of_pushack {t t' : ThreadUri} {data : Memory} {len : ℕ} {request : AckRequest}
    {s : List UInt8} (hs : t.clientId.Holds s) (hfit : s.length ≤ 248)
    (h : submitRequestPushack t data len = .ok (t', request)) :
    request.authorization = lit "Basic  " ++ s := by
  obtain ⟨basic, hbasic, hholds⟩ := basicClientId_ok hs hfit
  rw [submitRequestPushack] at h
  obtain ⟨pushData, -, h₁⟩ := Api.bind_eq_ok.mp h
  obtain ⟨diehard, -, h₂⟩ := Api.bind_eq_ok.mp h₁
  split_ifs at h₂
  obtain ⟨clid, hclid, h₃⟩ := Api.bind_eq_ok.mp h₂
  obtain ⟨authorization, hstr, h₄⟩ := Api.bind_eq_ok.mp h₃
  obtain ⟨datacopy, -, h₅⟩ := Api.bind_eq_ok.mp h₄
  rw [← Except.ok.inj (hbasic.symm.trans hclid), hholds.str_eq] at hstr
  obtain ⟨-, rfl⟩ := Prod.mk.inj (Except.ok.inj h₅)
  exact (Except.ok.inj hstr).symm

/-- The body is the ack of the push. -/
theorem ackHeaders_received (U : UrlReading) {L : Library} (hL : ReadsJson L) {request : AckRequest}
    {c : ClientId} {r : String} (hauth : request.authorization = lit "Basic  " ++ lit c)
    (hid : IsRequestId r) (hne : r ≠ "") (streamId : Int32) :
    AckHeaders L c r (received U (request.spdy (ackText r streamId)) []) where
  method := rfl
  isSpdy := rfl
  contentType := congrArg some (text_lit "application/json")
  authorization := by
    have htext : text request.authorization = "Basic  " ++ c := by rw [hauth, text_append]
    exact congrArg some htext
  body := by
    have hparse : L.jsonParse (text (ackText r streamId)) = .ok _ :=
      hL _ _ (parse_ackText L.numbers hid streamId)
    have hbody : (received U (request.spdy (ackText r streamId)) []).body = text (ackText r streamId) :=
      rfl
    refine ⟨.obj [("request_id", .str r), ("data", .str (ackMessage streamId))], ?_,
      parseRequestId_str hne⟩
    rw [Api.Validate.parseJson, hbody, hparse]

/-- For every push that the client can acknowledge, with whatever is in memory behind it: the ack is
    taken for one of this client and this push. -/
theorem ack_understood (U : UrlReading) (hU : U.Lawful) (L : Library) (hL : ReadsJson L)
    (config : Config) (t : ThreadUri) (streamId : Int32) (c : ClientId) (hc : ClientId.Generated c)
    (hclient : t.clientId.Holds (lit c)) (requestId message : String) (hid : IsUuid requestId)
    (hack : Acknowledgeable L.numbers t streamId requestId message) (rest : Memory) :
    ∃ t' request body req,
      submitRequestPushack t (payload L.numbers requestId message ++ rest)
          (payload L.numbers requestId message).length = .ok (t', request) ∧
        dataSourceReadCallback streamId blockLength request.source = .ok body ∧
        routed U (request.spdy body) = some (.ack, req) ∧ AcksAs L config c requestId req := by
  obtain ⟨hclen, hcsafe⟩ := hc.spec
  have hcfit : (lit c).length ≤ 248 := by rw [length_lit_urlSafe hcsafe]; omega
  obtain ⟨t', request, hsubmit, hsource⟩ := submitRequestPushack_ok
    (zero_notMem_payload L.numbers message hid.chars) t rest hack.short hack.spared hclient hcfit
  have hbody := dataSourceReadCallback_ok L.numbers message hid.chars streamId hsource
    (zero_notMem_ackData streamId) (by rw [length_ackText]; exact hack.fits)
  have hauth := authorization_of_pushack hclient hcfit hsubmit
  have hpath : Utf8.decode (request.spdy (ackText requestId streamId)).path
      = "/client/v2/ack".toList := Utf8.decode_encode _
  refine ⟨t', request, _, _, hsubmit, hbody, routed_eq hpath (dispatch_ack hU.router), ?_⟩
  have hname : requestId ∉ protoNames := PlainObject.notMem_protoNames_of_lt (by
    rw [← String.length_toList, hid.length]
    omega)
  exact (ackHeaders_received U hL hauth hid.chars hack.named streamId).acksAs hc hname

/-- A client that has registered. -/
def registeredThread : ThreadUri where
  clientId := ⟨lit zeroClientId ++ 0 :: List.replicate 167 0, by
    rw [List.length_append, List.length_cons, List.length_replicate]
    decide⟩
  pushId := .zero 256
  pushData := .zero 1024

theorem ack_understood_hello : registeredThread.clientId.Holds (lit zeroClientId) ∧
    ∃ t' request body req,
      submitRequestPushack registeredThread (payload jsonLibrary.numbers someUuid "hello")
          (payload jsonLibrary.numbers someUuid "hello").length = .ok (t', request) ∧
        dataSourceReadCallback 5 blockLength request.source = .ok body ∧
        routed exactReading (request.spdy body) = some (.ack, req) ∧
        AcksAs jsonLibrary .default zeroClientId someUuid req := by
  have hholds : registeredThread.clientId.Holds (lit zeroClientId) :=
    cstr_append (zero_notMem_urlSafe generated_zeroClientId.spec.2) _
  have hfit : (lit zeroClientId).length ≤ 248 := by decide
  have hid := isUuid_someUuid.chars
  have hack : Acknowledgeable jsonLibrary.numbers registeredThread 5 someUuid "hello" := by
    refine ⟨?_, ?_, ⟨_, hholds, hfit⟩, by decide, by decide⟩
    · rw [payload_eq _ _ hid]
      decide
    · rw [payload_eq _ _ hid]
      exact search_eq_none.mp (by decide +kernel)
  have hunderstood := ack_understood exactReading exactReading_lawful jsonLibrary readsJson_jsonLibrary
    .default registeredThread 5 zeroClientId generated_zeroClientId hholds someUuid "hello"
    isUuid_someUuid hack []
  rw [List.append_nil] at hunderstood
  exact ⟨hholds, hunderstood⟩

end Elephant.Client
