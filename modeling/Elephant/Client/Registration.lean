import Elephant.Api.Framing
import Elephant.Client.Spdycli
import Elephant.Model.ClientPushId

/-! The ids that a response issues, as the test client finds them.

        registered   {"client_id":"…","push_id":"…"}
        refreshed    {"push_id":"…"}

    The client searches a response for both keys, whichever request it answers. It does so while it has
    no client id (full mode) or no push id (refresh mode) yet. -/

namespace Elephant.Client
open Elephant.Schemes Elephant.Schemes.C Elephant.Model

/-- What the service answers to a registration and to a refresh. -/
inductive Answer where
  | registered (clientId : ClientId) (pushId : PushId)
  | refreshed (pushId : PushId)

namespace Answer

def outputs : Answer → List Api.Output
  | .registered clientId pushId => Api.Register.complete (.ok (clientId, pushId))
  | .refreshed pushId => Api.Refresh.complete (.ok pushId)

def json : Answer → Json
  | .registered clientId pushId => .obj [("client_id", .str clientId), ("push_id", .str pushId)]
  | .refreshed pushId => .obj [("push_id", .str pushId)]

theorem responses_outputs (a : Answer) : Api.responses a.outputs = [(200, a.json)] := by
  cases a with
  | registered clientId pushId => rfl
  | refreshed pushId => rfl

def body (N : NumberText) (a : Answer) : List UInt8 := (Api.jsonify N 200 a.json).body

theorem body_eq (N : NumberText) (a : Answer) :
    a.body N = Utf8.encode (a.json.stringify N).toList := rfl

def pushId : Answer → PushId
  | .registered _ pushId => pushId
  | .refreshed pushId => pushId

def Registers : Answer → Prop
  | .registered _ _ => True
  | .refreshed _ => False

/-- The ids are generated ones. -/
def Issued : Answer → Prop
  | .registered clientId pushId => ClientId.Generated clientId ∧ PushId.Generated pushId
  | .refreshed pushId => PushId.Generated pushId

/-- The client id is the issued one, or it is as before. -/
def ClientIdAfter (t t' : ThreadUri) : Answer → Prop
  | .registered clientId _ => t'.clientId.Holds (lit clientId)
  | .refreshed _ => t'.clientId = t.clientId

end Answer

/-- The response arrives in one chunk with a NUL behind it, and the client takes over its ids. -/
def Agrees (N : NumberText) (flags : Flags) (t : ThreadUri) (a : Answer) (rest : Memory) : Prop :=
  ∃ t' request, updateClientPushId flags t (a.body N ++ 0 :: rest) = .ok (t', request) ∧
    t'.pushId.Holds (lit a.pushId) ∧ a.ClientIdAfter t t'

/-- The string that must be empty for a response to be scanned. -/
def known (flags : Flags) (t : ThreadUri) : CharArray 256 :=
  if flags.fullmode then t.clientId else t.pushId

/-- A response to a registration is scanned; what is not scanned brings nothing new. -/
def Expected (flags : Flags) (t : ThreadUri) (a : Answer) : Prop :=
  ((known flags t).Holds [] ∧ a.Registers) ∨
    ((∃ s, (known flags t).Holds s ∧ s ≠ []) ∧ t.pushId.Holds (lit a.pushId) ∧ a.ClientIdAfter t t)

/-! ### The texts -/

section

variable {s : String}

theorem plain_urlSafe {c : Char} (h : Base64.IsUrlSafe c) : Plain c where
  mark := by rintro rfl; exact absurd h (by decide)
  backslash := by rintro rfl; exact absurd h (by decide)
  visible := h.bounds.1

theorem quote_urlSafe (h : ∀ x ∈ s.toList, Base64.IsUrlSafe x) :
    quote s = '"' :: (s.toList ++ ['"']) :=
  quote_plain fun x hx => plain_urlSafe (h x hx)

/-- The lengths of what is the same in all texts. -/
theorem length_parts : (lit "\x7b").length = 1 ∧ (lit "client_id").length = 9 ∧
    (lit "push_id").length = 7 ∧ (lit "request_id").length = 10 ∧ (lit "data").length = 4 ∧
    (lit ":").length = 1 ∧ (lit ",").length = 1 := by decide

theorem zero_notMem_parts : 0 ∉ lit "\x7b" ∧ 0 ∉ lit "client_id" ∧ 0 ∉ lit "push_id" ∧
    0 ∉ lit "request_id" ∧ 0 ∉ lit "data" ∧ 0 ∉ lit ":" ∧ 0 ∉ lit "," ∧ 0 ∉ lit "\x7d" ∧
    (0 : UInt8) ≠ 34 := by decide

theorem length_lit_ascii (h : IsAscii s.toList) : (lit s).length = s.toList.length := by
  rw [lit, ← (utf16Length_encode s.toList).2.mpr h, utf16Length_of_isAscii h]

theorem length_lit_urlSafe (h : ∀ x ∈ s.toList, Base64.IsUrlSafe x) :
    (lit s).length = s.toList.length :=
  length_lit_ascii fun x hx => (h x hx).bounds.2

theorem zero_notMem_urlSafe (h : ∀ x ∈ s.toList, Base64.IsUrlSafe x) : 0 ∉ lit s :=
  zero_notMem_lit fun hmem => absurd (h _ hmem).bounds (by decide)

theorem mark_notMem_urlSafe (h : ∀ x ∈ s.toList, Base64.IsUrlSafe x) : 34 ∉ lit s :=
  mark_notMem_lit fun hmem => absurd (h _ hmem) (by decide)

end

section

variable (N : NumberText) {c : ClientId} {p : PushId}

theorem stringify_registered (c : ClientId) (p : PushId) :
    ((Answer.registered c p).json.stringify N).toList
      = '\x7b' :: (quote "client_id" ++ ':' :: (quote c ++ ',' :: (quote "push_id" ++ ':' ::
        (quote p ++ ['\x7d'])))) := by
  have hnames : propertyNames ["client_id", "push_id"] = ["client_id", "push_id"] := by decide
  have hwritten : properties [("client_id", quote c), ("push_id", quote p)]
      = [quote "client_id" ++ ':' :: quote c, quote "push_id" ++ ':' :: quote p] := by
    rw [properties, List.map_cons, List.map_cons, List.map_nil, hnames]
    rfl
  rw [Answer.json, Json.stringify, String.toList_ofList, Json.write, Json.writeMembers,
    Json.writeMembers, Json.writeMembers, Json.write, Json.write, hwritten]
  simp [List.intercalate_cons_cons]

theorem stringify_refreshed (p : PushId) : ((Answer.refreshed p).json.stringify N).toList
    = '\x7b' :: (quote "push_id" ++ ':' :: (quote p ++ ['\x7d'])) := by
  have hnames : propertyNames ["push_id"] = ["push_id"] := by decide
  have hwritten : properties [("push_id", quote p)] = [quote "push_id" ++ ':' :: quote p] := by
    rw [properties, List.map_cons, List.map_nil, hnames]
    rfl
  rw [Answer.json, Json.stringify, String.toList_ofList, Json.write, Json.writeMembers,
    Json.writeMembers, Json.write, hwritten]
  simp

theorem encode_mark (text : List Char) : Utf8.encode ('"' :: text) = 34 :: Utf8.encode text := rfl

/-- The response to a registration, cut at its marks. -/
theorem body_registered (hc : ∀ x ∈ c.toList, Base64.IsUrlSafe x)
    (hp : ∀ x ∈ p.toList, Base64.IsUrlSafe x) : (Answer.registered c p).body N
      = lit "\x7b" ++ 34 :: (lit "client_id" ++ 34 :: (lit ":" ++ 34 :: (lit c ++ 34 :: (lit "," ++
        34 :: (lit "push_id" ++ 34 :: (lit ":" ++ 34 :: (lit p ++ 34 :: lit "\x7d"))))))) := by
  have htext : ((Answer.registered c p).json.stringify N).toList
      = "\x7b".toList ++ '"' :: ("client_id".toList ++ '"' :: (":".toList ++ '"' :: (c.toList ++
        '"' :: (",".toList ++ '"' :: ("push_id".toList ++ '"' :: (":".toList ++ '"' :: (p.toList ++
        '"' :: "\x7d".toList))))))) := by
    rw [stringify_registered, quote_urlSafe hc, quote_urlSafe hp]
    simp [quote, escape]
  rw [Answer.body_eq, htext]
  simp only [Utf8.encode_append, encode_mark, lit]

theorem body_refreshed (hp : ∀ x ∈ p.toList, Base64.IsUrlSafe x) : (Answer.refreshed p).body N
      = lit "\x7b" ++ 34 :: (lit "push_id" ++ 34 :: (lit ":" ++ 34 :: (lit p ++ 34 ::
        lit "\x7d"))) := by
  have htext : ((Answer.refreshed p).json.stringify N).toList
      = "\x7b".toList ++ '"' :: ("push_id".toList ++ '"' :: (":".toList ++ '"' :: (p.toList ++
        '"' :: "\x7d".toList))) := by
    rw [stringify_refreshed, quote_urlSafe hp]
    simp [quote, escape]
  rw [Answer.body_eq, htext]
  simp only [Utf8.encode_append, encode_mark, lit]

end

/-! ### The searches -/

section

variable {c p t : List UInt8}

theorem lit_clientIdKey : lit "client_id\":" = lit "client_id" ++ 34 :: lit ":" := by decide

theorem lit_pushIdKey : lit "push_id\":" = lit "push_id" ++ 34 :: lit ":" := by decide

theorem colon_not_prefix_comma : ¬ lit ":" <+: lit "," ++ t := by
  have hcolon : lit ":" = [58] := by decide
  have hcomma : lit "," = [44] := by decide
  rw [hcolon, hcomma]
  simp

theorem search_clientId_registered : search (lit "client_id\":")
    (lit "\x7b" ++ 34 :: (lit "client_id" ++ 34 :: (lit ":" ++ t))) = some 2 := by
  have hfound : search (lit "client_id" ++ 34 :: lit ":") (lit "client_id" ++ 34 :: (lit ":" ++ t))
      = some 0 :=
    search_found (t := []) (by decide) List.not_mem_nil (List.prefix_append _ _)
  rw [lit_clientIdKey, search_segment (by decide) (by decide) fun h => absurd h.1 (by decide), hfound]
  rfl

/-- A client id that ends like the key is not followed by a colon. -/
theorem search_pushId_registered (hc : 34 ∉ c) : search (lit "push_id\":")
    (lit "\x7b" ++ 34 :: (lit "client_id" ++ 34 :: (lit ":" ++ 34 :: (c ++ 34 :: (lit "," ++
      34 :: (lit "push_id" ++ 34 :: (lit ":" ++ t))))))) = some (c.length + 17) := by
  have hfound : search (lit "push_id" ++ 34 :: lit ":") (lit "push_id" ++ 34 :: (lit ":" ++ t))
      = some 0 :=
    search_found (t := []) (by decide) List.not_mem_nil (List.prefix_append _ _)
  rw [lit_pushIdKey, search_segment (by decide) (by decide) fun h => absurd h.1 (by decide),
    search_segment (by decide) (by decide) fun h => absurd h.1 (by decide),
    search_segment (by decide) (by decide) fun h => absurd h.1 (by decide),
    search_segment (by decide) hc fun h => colon_not_prefix_comma h.2,
    search_segment (by decide) (by decide) fun h => absurd h.1 (by decide), hfound]
  simp only [Option.map_some, length_parts, Option.some.injEq]
  omega

theorem search_clientId_refreshed (hp : 34 ∉ p) : search (lit "client_id\":")
    (lit "\x7b" ++ 34 :: (lit "push_id" ++ 34 :: (lit ":" ++ 34 :: (p ++ 34 :: lit "\x7d"))))
      = none := by
  have hbrace : ¬ lit ":" <+: lit "\x7d" := by decide
  have hend : search (lit "client_id" ++ 34 :: lit ":") (lit "\x7d") = none := by decide
  rw [lit_clientIdKey, search_segment (by decide) (by decide) fun h => absurd h.1 (by decide),
    search_segment (by decide) (by decide) fun h => absurd h.1 (by decide),
    search_segment (by decide) (by decide) fun h => absurd h.1 (by decide),
    search_segment (by decide) hp fun h => hbrace h.2, hend]
  rfl

end

/-! ### What the client takes over -/

section

variable (N : NumberText) (flags : Flags) (t : ThreadUri) {c : ClientId} {p : PushId} (rest : Memory)

theorem zero_notMem_registered (hc : ∀ x ∈ c.toList, Base64.IsUrlSafe x)
    (hp : ∀ x ∈ p.toList, Base64.IsUrlSafe x) : 0 ∉ (Answer.registered c p).body N := by
  rw [body_registered N hc hp]
  simp only [List.mem_append, List.mem_cons, not_or]
  simp [zero_notMem_parts, zero_notMem_urlSafe hc, zero_notMem_urlSafe hp]

theorem zero_notMem_refreshed (hp : ∀ x ∈ p.toList, Base64.IsUrlSafe x) :
    0 ∉ (Answer.refreshed p).body N := by
  rw [body_refreshed N hp]
  simp only [List.mem_append, List.mem_cons, not_or]
  simp [zero_notMem_parts, zero_notMem_urlSafe hp]

/-- The client id stands between the marks behind its key. -/
theorem getClientId_registered (retbuf : CharArray 256) (hc : ∀ x ∈ c.toList, Base64.IsUrlSafe x)
    (hlen : c.toList.length < 256) (hp : ∀ x ∈ p.toList, Base64.IsUrlSafe x) :
    ∃ retbuf', getClientId ((Answer.registered c p).body N ++ 0 :: rest) retbuf = .ok retbuf' ∧
      retbuf'.Holds (lit c) := by
  have hopened : lit "client_id\":\"" = lit "client_id" ++ 34 :: (lit ":" ++ [34]) := by decide
  have hbody : (Answer.registered c p).body N = (lit "\x7b" ++ [34]) ++ (lit "client_id\":\"" ++
      (lit c ++ 34 :: (lit "," ++ 34 :: (lit "push_id" ++ 34 :: (lit ":" ++ 34 :: (lit p ++ 34 ::
        lit "\x7d")))))) := by
    rw [body_registered N hc hp, hopened]
    simp only [List.append_assoc, List.cons_append, List.nil_append]
  have hzero := zero_notMem_registered N hc hp
  have hsearch := search_clientId_registered (t := 34 :: (lit c ++ 34 :: (lit "," ++ 34 ::
    (lit "push_id" ++ 34 :: (lit ":" ++ 34 :: (lit p ++ 34 :: lit "\x7d"))))))
  rw [← body_registered N hc hp] at hsearch
  rw [hbody] at hzero hsearch ⊢
  exact getId_ok rest hzero hsearch (mark_notMem_urlSafe hc) (by rwa [length_lit_urlSafe hc])

theorem getPushId_registered (retbuf : CharArray 256) (hc : ∀ x ∈ c.toList, Base64.IsUrlSafe x)
    (hp : ∀ x ∈ p.toList, Base64.IsUrlSafe x) (hlen : p.toList.length < 256) :
    ∃ retbuf', getPushId ((Answer.registered c p).body N ++ 0 :: rest) retbuf = .ok retbuf' ∧
      retbuf'.Holds (lit p) := by
  have hopened : lit "push_id\":\"" = lit "push_id" ++ 34 :: (lit ":" ++ [34]) := by decide
  have hfront : (lit "\x7b" ++ 34 :: (lit "client_id" ++ 34 :: (lit ":" ++ 34 :: (lit c ++ 34 ::
      (lit "," ++ [34]))))).length = (lit c).length + 17 := by
    simp only [List.length_append, List.length_cons, List.length_nil, length_parts]
    omega
  have hbody : (Answer.registered c p).body N = (lit "\x7b" ++ 34 :: (lit "client_id" ++ 34 ::
      (lit ":" ++ 34 :: (lit c ++ 34 :: (lit "," ++ [34]))))) ++ (lit "push_id\":\"" ++ (lit p ++
        34 :: lit "\x7d")) := by
    rw [body_registered N hc hp, hopened]
    simp only [List.append_assoc, List.cons_append, List.nil_append]
  have hzero := zero_notMem_registered N hc hp
  have hsearch := search_pushId_registered (t := 34 :: (lit p ++ 34 :: lit "\x7d"))
    (mark_notMem_urlSafe hc)
  rw [← body_registered N hc hp, ← hfront] at hsearch
  rw [hbody] at hzero hsearch ⊢
  exact getId_ok rest hzero hsearch (mark_notMem_urlSafe hp) (by rwa [length_lit_urlSafe hp])

theorem obtainIds_registered (hc : ClientId.Generated c) (hp : PushId.Generated p) :
    ∃ t' request, obtainIds flags t ((Answer.registered c p).body N ++ 0 :: rest)
        = .ok (t', request) ∧
      t'.pushId.Holds (lit p) ∧ t'.clientId.Holds (lit c) := by
  obtain ⟨hclen, hcsafe⟩ := hc.spec
  obtain ⟨hplen, hpsafe⟩ := hp.spec
  obtain ⟨clientId, hclientId, hcholds⟩ :=
    getClientId_registered N rest t.clientId hcsafe (by omega) hpsafe
  obtain ⟨pushId, hpushId, hpholds⟩ :=
    getPushId_registered N rest t.pushId hcsafe hpsafe (by omega)
  obtain ⟨authorization, hrequest⟩ := submitRequestListenV2_ok flags hcholds hpholds
    (by rw [length_lit_urlSafe hcsafe]; omega) (by rw [length_lit_urlSafe hpsafe]; omega)
  have hids : obtainIds flags t ((Answer.registered c p).body N ++ 0 :: rest)
      = .ok ({ t with clientId := clientId, pushId := pushId },
        some ⟨lit "/client/v2/" ++ lit p ++ lit "?min_ping_interval_sec=30", authorization⟩) := by
    simp only [obtainIds, hclientId, bind, Except.bind, hpushId, hrequest]
    rfl
  exact ⟨_, _, hids, hpholds, hcholds⟩

/-- There is no client id in the response to a refresh. -/
theorem obtainIds_refreshed (hp : PushId.Generated p) :
    obtainIds flags t ((Answer.refreshed p).body N ++ 0 :: rest) = .error .nullDereference := by
  have hsafe := hp.spec.2
  have hsearch := search_clientId_refreshed (mark_notMem_urlSafe hsafe)
  rw [← body_refreshed N hsafe] at hsearch
  have hmissing : getClientId ((Answer.refreshed p).body N ++ 0 :: rest) t.clientId
      = .error .nullDereference := getId_missing rest (zero_notMem_refreshed N hsafe) hsearch
  simp only [obtainIds, hmissing, bind, Except.bind]

end

theorem updateClientPushId_eq {flags : Flags} (hunit : flags.unitmode = false)
    (hmode : flags.fullmode = true ∨ flags.refreshmode = true) (t : ThreadUri) (data : Memory) :
    updateClientPushId flags t data = obtainUnless (known flags t) flags t data := by
  rw [updateClientPushId, hunit, if_neg (by decide), known]
  cases hfull : flags.fullmode with
  | true => rfl
  | false =>
    have hrefresh : flags.refreshmode = true := by
      rcases hmode with h | h
      · rw [hfull] at h; exact absurd h (by decide)
      · exact h
    rw [hrefresh]
    rfl

section

variable {a : CharArray 256} {s : List UInt8} (flags : Flags) (t : ThreadUri) (data : Memory)

theorem obtainUnless_empty (h : a.Holds []) :
    obtainUnless a flags t data = obtainIds flags t data := by
  simp only [obtainUnless, h.str_eq, bind, Except.bind]
  rfl

theorem obtainUnless_known (h : a.Holds s) (hs : s ≠ []) :
    obtainUnless a flags t data = .ok (t, none) := by
  simp only [obtainUnless, h.str_eq, bind, Except.bind]
  exact if_pos (List.length_pos_iff.mpr hs)

theorem obtainUnless_unterminated (h : ∀ s, ¬ a.Holds s) :
    obtainUnless a flags t data = .error .outOfBounds := by
  simp only [obtainUnless, CharArray.str_unterminated h, bind, Except.bind]

end

section

variable {N : NumberText} {flags : Flags} {t : ThreadUri} {a : Answer} {rest : Memory}

theorem not_agrees_of_error {e : Stop}
    (h : updateClientPushId flags t (a.body N ++ 0 :: rest) = .error e) :
    ¬ Agrees N flags t a rest := by
  rintro ⟨t', request, hok, -⟩
  rw [h] at hok
  exact absurd hok (by simp)

variable (hunit : flags.unitmode = false) (hmode : flags.fullmode = true ∨ flags.refreshmode = true)
include hunit hmode

/-- An answer that is scanned must be that of a registration. -/
theorem agrees_iff_of_empty (hissued : a.Issued) (hempty : (known flags t).Holds []) :
    Agrees N flags t a rest ↔ a.Registers := by
  have hupdate := updateClientPushId_eq hunit hmode t (a.body N ++ 0 :: rest)
  rw [obtainUnless_empty _ _ _ hempty] at hupdate
  cases a with
  | registered c p =>
    obtain ⟨t', request, hids, hpholds, hcholds⟩ :=
      obtainIds_registered N flags t rest hissued.1 hissued.2
    exact iff_of_true ⟨t', request, hupdate.trans hids, hpholds, hcholds⟩ trivial
  | refreshed p =>
    rw [obtainIds_refreshed N flags t rest hissued] at hupdate
    exact iff_of_false (not_agrees_of_error hupdate) id

/-- An answer that is not scanned changes nothing. -/
theorem agrees_iff_of_known {s : List UInt8} (hs : (known flags t).Holds s) (hne : s ≠ []) :
    Agrees N flags t a rest ↔ t.pushId.Holds (lit a.pushId) ∧ a.ClientIdAfter t t := by
  have hupdate := updateClientPushId_eq hunit hmode t (a.body N ++ 0 :: rest)
  rw [obtainUnless_known _ _ _ hs hne] at hupdate
  constructor
  · rintro ⟨t', request, h, hpush, hclient⟩
    rw [hupdate] at h
    obtain ⟨rfl, rfl⟩ := Prod.mk.inj (Except.ok.inj h)
    exact ⟨hpush, hclient⟩
  · rintro ⟨hpush, hclient⟩
    exact ⟨t, none, hupdate, hpush, hclient⟩

theorem not_agrees_of_unterminated (h : ∀ s, ¬ (known flags t).Holds s) :
    ¬ Agrees N flags t a rest := by
  have hupdate := updateClientPushId_eq hunit hmode t (a.body N ++ 0 :: rest)
  rw [obtainUnless_unterminated _ _ _ h] at hupdate
  exact not_agrees_of_error hupdate

end

/-- For every answer with generated ids, every state of the client and every flag of the two modes: the
    client takes the ids over iff the answer is one it expects. -/
theorem agrees_iff_expected (N : NumberText) (flags : Flags) (hunit : flags.unitmode = false)
    (hmode : flags.fullmode = true ∨ flags.refreshmode = true) (t : ThreadUri) (a : Answer)
    (hissued : a.Issued) (rest : Memory) : Agrees N flags t a rest ↔ Expected flags t a := by
  by_cases hknown : ∃ s, (known flags t).Holds s
  · obtain ⟨s, hs⟩ := hknown
    cases s with
    | nil =>
      rw [agrees_iff_of_empty hunit hmode hissued hs]
      constructor
      · exact fun h => .inl ⟨hs, h⟩
      · rintro (⟨-, h⟩ | ⟨⟨s, hs', hne⟩, -⟩)
        · exact h
        · exact absurd (hs'.inj hs) hne
    | cons b s =>
      rw [agrees_iff_of_known hunit hmode hs (List.cons_ne_nil b s)]
      constructor
      · exact fun h => .inr ⟨⟨b :: s, hs, List.cons_ne_nil b s⟩, h⟩
      · rintro (⟨hs', -⟩ | ⟨-, h⟩)
        · exact absurd (hs.inj hs') (List.cons_ne_nil b s)
        · exact h
  · -- a string without an end
    refine iff_of_false (not_agrees_of_unterminated hunit hmode fun s hs => hknown ⟨s, hs⟩) ?_
    rintro (⟨h, -⟩ | ⟨⟨s, hs, -⟩, -⟩)
    · exact hknown ⟨[], h⟩
    · exact hknown ⟨s, hs⟩

/-- The ids for bytes that are all zero. -/
def zeroClientId : ClientId := String.ofList (Base64.urlSafe (Base64.encode (List.replicate 64 0)))

def zeroPushId : PushId := PushId.generatePushIdWithSalt (fun _ => List.replicate 20 0) "elephant" "" 0

theorem generated_zeroClientId : ClientId.Generated zeroClientId := ClientId.Generated.repeated 0

theorem generated_zeroPushId : PushId.Generated zeroPushId :=
  ⟨fun _ => List.replicate 20 0, "elephant", "", 0, fun _ => List.length_replicate, rfl⟩

def fullMode : Flags := ⟨false, true, false, false⟩

def refreshMode : Flags := ⟨false, false, true, false⟩

def freshThread : ThreadUri := ⟨.zero 256, .zero 256, .zero 1024⟩

/-- A client that has nothing yet registers. -/
theorem agrees_registered :
    Answer.Issued (.registered zeroClientId zeroPushId) ∧
      ∀ N, Agrees N fullMode freshThread (.registered zeroClientId zeroPushId) [] := by
  have hissued : Answer.Issued (.registered zeroClientId zeroPushId) :=
    ⟨generated_zeroClientId, generated_zeroPushId⟩
  refine ⟨hissued, fun N => ?_⟩
  refine (agrees_iff_expected N fullMode rfl (.inl rfl) freshThread _ hissued []).mpr (.inl ⟨?_, trivial⟩)
  exact CharArray.holds_zero (by decide)

/-- A client with a client id only, as it is for a refresh. -/
def refreshingThread : ThreadUri where
  clientId := ⟨lit "refresh-test-client-1" ++ List.replicate 235 0, by
    rw [List.length_append, List.length_replicate]
    decide⟩
  pushId := .zero 256
  pushData := .zero 1024

/-- The client id is searched for in the response to a refresh, and the failed search is used. -/
theorem not_agrees_refreshed :
    Answer.Issued (.refreshed zeroPushId) ∧ refreshingThread.pushId.Holds [] ∧
      ∀ N rest, updateClientPushId refreshMode refreshingThread
          ((Answer.refreshed zeroPushId).body N ++ 0 :: rest) = .error .nullDereference ∧
        ¬ Agrees N refreshMode refreshingThread (.refreshed zeroPushId) rest := by
  have hempty : refreshingThread.pushId.Holds [] := CharArray.holds_zero (by decide)
  have hknown : (known refreshMode refreshingThread).Holds [] := hempty
  refine ⟨generated_zeroPushId, hempty, fun N rest => ?_⟩
  have hupdate : updateClientPushId refreshMode refreshingThread
      ((Answer.refreshed zeroPushId).body N ++ 0 :: rest) = .error .nullDereference := by
    rw [updateClientPushId_eq rfl (.inr rfl), obtainUnless_empty _ _ _ hknown,
      obtainIds_refreshed N _ _ rest generated_zeroPushId]
  exact ⟨hupdate, not_agrees_of_error hupdate⟩

end Elephant.Client
