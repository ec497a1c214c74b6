import Mathlib.Data.List.TakeWhile
import Elephant.Client.Spdycli

/-! The addresses of the test client (`client/spdylay/client/spdycli.c`, `parse_uri`, `request_init`).

        https://  name        [ : port ]  rest             rest up to '#' is the path
        https://  [ literal ] [ : port ]  rest
                  ╰──────── hostport ──╯

    Nothing is copied while an address is parsed: the result has positions and lengths, and
    `request_init` makes the copies. The length of `hostport` is taken from the start of the host, which
    for a literal is behind the bracket, so that the copy then lacks its last character. -/

namespace Elephant.Client
open Elephant.Schemes Elephant.Schemes.C

/-- Pointers are positions in the text; without `path` it is the literal `"/"`. -/
structure URI where
  host : ℕ
  hostlen : ℕ
  port : ℕ
  path : Option ℕ
  pathlen : ℕ
  hostport : ℕ
  hostportlen : ℕ
  deriving DecidableEq, Repr

/-- What `request_init` copies. -/
structure Target where
  host : List UInt8
  port : ℕ
  path : List UInt8
  hostport : List UInt8
  deriving DecidableEq, Repr

/-! ### The functions -/

/-- `strchr(delims, c) != NULL` for a character of a string. -/
def strchr (delims : String) (c : UInt8) : Bool := decide (c ∈ lit delims)

/-- Where the loop from `offset` breaks. -/
def scan (stop : UInt8 → Bool) (uri : List UInt8) (offset : ℕ) : ℕ :=
  offset + (uri.drop offset).findIdx stop

/-- `host`, `hostlen` and the offset behind the host. -/
def parseHost (uri : List UInt8) : ℕ × ℕ × ℕ :=
  if uri[8]? = some 91 then
    let i := scan (· = 93) uri 9
    if i < uri.length then (9, i - 9, i + 1) else (9, 0, 9)
  else
    let i := scan (strchr ":/?#") uri 8
    (8, i - 8, i)

/-- The loop over the digits, from position `i` with the rest of the text: where it breaks, and the
    port. -/
def portLoop (i port : ℕ) : List UInt8 → Option (ℕ × ℕ)
  | [] => some (i, port)
  | c :: rest =>
    if strchr "/?#" c then some (i, port)
    else if 48 ≤ c ∧ c ≤ 57 then
      let port' := port * 10 + (c.toNat - 48)
      if port' > 65535 then none else portLoop (i + 1) port' rest
    else none

/-- The port and the offset behind it. -/
def parsePort (uri : List UInt8) (offset : ℕ) : Option (ℕ × ℕ) :=
  if uri[offset]? = some 58 then
    (portLoop (offset + 1) 0 (uri.drop (offset + 1))).bind fun found =>
      if found.2 = 0 then none else some (found.2, found.1)
  else some (443, offset)

def parseUri (uri : List UInt8) : Option URI :=
  if uri.length < 9 ∨ uri.take 8 ≠ lit "https://" then none
  else
    let (host, hostlen, offset) := parseHost uri
    if hostlen = 0 then none
    else (parsePort uri offset).map fun (port, offset) =>
      let i := scan (· = 35) uri offset
      { host := host
        hostlen := hostlen
        port := port
        path := if i - offset = 0 then none else some offset
        pathlen := if i - offset = 0 then 1 else i - offset
        hostport := 8
        hostportlen := offset - host }

/-- `memcpy` of `len` characters at position `i`. -/
def strcopy (s : List UInt8) (i len : ℕ) : Except Stop (List UInt8) :=
  if i + len ≤ s.length then .ok ((s.drop i).take len) else .error .outOfBounds

def copyPath (uri : List UInt8) (res : URI) : Except Stop (List UInt8) :=
  match res.path with
  | none => strcopy (lit "/") 0 res.pathlen
  | some i => strcopy uri i res.pathlen

def requestInit (uri : List UInt8) (res : URI) : Except Stop Target := do
  let host ← strcopy uri res.host res.hostlen
  let path ← copyPath uri res
  let hostport ← strcopy uri res.hostport res.hostportlen
  return ⟨host, res.port, path, hostport⟩

/-- An address that is refused has no target. -/
def target (uri : List UInt8) : Except Stop (Option Target) :=
  match parseUri uri with
  | none => .ok none
  | some res => (requestInit uri res).map some

/-! ### The addresses that are accepted -/

inductive Host where
  | name (text : List UInt8)
  | literal (address : List UInt8)

namespace Host

def text : Host → List UInt8
  | .name text => text
  | .literal address => 91 :: (address ++ [93])

/-- What is connected to. -/
def bare : Host → List UInt8
  | .name text => text
  | .literal address => address

def Valid : Host → Prop
  | .name text => text ≠ [] ∧ text.head? ≠ some 91 ∧ ∀ c ∈ text, strchr ":/?#" c = false
  | .literal address => address ≠ [] ∧ 93 ∉ address

/-- A name ends at a delimiter; behind a bracket anything may follow. -/
def Ends (rest : List UInt8) : Host → Prop
  | .name _ => ∀ c ∈ rest.head?, strchr "/?#" c = true
  | .literal _ => rest.head? ≠ some 58

end Host

/-- The number of a port. -/
def portNumber (digits : List UInt8) : ℕ := digits.foldl (fun port c => port * 10 + (c.toNat - 48)) 0

/-- An address cut into pieces. -/
structure Parts where
  host : Host
  port : Option (List UInt8)
  rest : List UInt8

namespace Parts

def authority (p : Parts) : List UInt8 := p.host.text ++ p.port.elim [] (58 :: ·)

def text (p : Parts) : List UInt8 := lit "https://" ++ (p.authority ++ p.rest)

structure Valid (p : Parts) : Prop where
  host : p.host.Valid
  ends : p.port = none → p.host.Ends p.rest
  port : ∀ digits, p.port = some digits → (∀ c ∈ digits, 48 ≤ c ∧ c ≤ 57) ∧
    0 < portNumber digits ∧ portNumber digits ≤ 65535 ∧ ∀ c ∈ p.rest.head?, strchr "/?#" c = true

/-- What is before the fragment. -/
def path (p : Parts) : List UInt8 := p.rest.takeWhile (· ≠ 35)

/-- For a literal the last character of `hostport` is missing. -/
def target (p : Parts) : Target where
  host := p.host.bare
  port := p.port.elim 443 portNumber
  path := if p.path = [] then lit "/" else p.path
  hostport := match p.host with
    | .name _ => p.authority
    | .literal _ => p.authority.dropLast

end Parts

/-! ### Loops -/

/-- A loop passes what does not stop it. -/
theorem scan_append {stop : UInt8 → Bool} (front : List UInt8) {middle rest : List UInt8}
    (hmiddle : ∀ c ∈ middle, stop c = false) (hrest : ∀ c ∈ rest.head?, stop c = true) :
    scan stop (front ++ (middle ++ rest)) front.length = front.length + middle.length := by
  have hfind : (middle ++ rest).findIdx stop = middle.length := by
    rw [List.findIdx_append, if_neg]
    · cases rest with
      | nil => simp
      | cons c rest => simp [List.findIdx_cons, hrest c (by simp)]
    · have hlen : middle.findIdx stop = middle.length :=
        List.findIdx_eq_length.mpr fun c hc => by simp [hmiddle c hc]
      omega
  rw [scan, List.drop_left, hfind]

/-- Every loop is of this kind. -/
theorem scan_split (stop : UInt8 → Bool) (front rest : List UInt8) :
    ∃ middle tail, rest = middle ++ tail ∧ (∀ c ∈ middle, stop c = false) ∧
      (∀ c ∈ tail.head?, stop c = true) ∧
      scan stop (front ++ rest) front.length = front.length + middle.length := by
  have hrest : rest = rest.takeWhile (fun c => !stop c) ++ rest.dropWhile (fun c => !stop c) :=
    List.takeWhile_append_dropWhile.symm
  have hmiddle : ∀ c ∈ rest.takeWhile (fun c => !stop c), stop c = false :=
    fun c hc => by simpa using List.mem_takeWhile_imp hc
  have htail : ∀ c ∈ (rest.dropWhile fun c => !stop c).head?, stop c = true := by
    intro c hc
    have hhead := List.head?_dropWhile_not (fun c => !stop c) rest
    rw [Option.mem_def.mp hc] at hhead
    simpa using hhead
  refine ⟨_, _, hrest, hmiddle, htail, ?_⟩
  rw [← scan_append front hmiddle htail, ← hrest]

theorem strchr_digit {c : UInt8} (h : 48 ≤ c ∧ c ≤ 57) : strchr "/?#" c = false := by
  have hdelims : lit "/?#" = [47, 63, 35] := by decide
  have hc : c ≠ 47 ∧ c ≠ 63 ∧ c ≠ 35 := by
    refine ⟨?_, ?_, ?_⟩ <;> rintro rfl <;> exact absurd h (by decide)
  simp [strchr, hdelims, hc]

theorem le_foldl_digits : ∀ (digits : List UInt8) (port : ℕ),
    port ≤ digits.foldl (fun port c => port * 10 + (c.toNat - 48)) port
  | [], _ => le_rfl
  | c :: digits, port => by
      have hstep : port ≤ port * 10 + (c.toNat - 48) := by omega
      exact hstep.trans (le_foldl_digits digits _)

/-- The digits of a port in front of a delimiter. The loop gives up as soon as the number is too
    large: further digits make it no smaller. -/
theorem portLoop_digits {rest : List UInt8} (hrest : ∀ c ∈ rest.head?, strchr "/?#" c = true) :
    ∀ (digits : List UInt8) (i port : ℕ), (∀ c ∈ digits, 48 ≤ c ∧ c ≤ 57) →
    digits.foldl (fun port c => port * 10 + (c.toNat - 48)) port ≤ 65535 →
    portLoop i port (digits ++ rest)
      = some (i + digits.length, digits.foldl (fun port c => port * 10 + (c.toNat - 48)) port)
  | [], i, port, _, _ => by
      cases rest with
      | nil => rfl
      | cons c rest => simp [portLoop, hrest c (by simp)]
  | c :: digits, i, port, hdigits, hle => by
      have hc := hdigits c List.mem_cons_self
      have hsmall : port * 10 + (c.toNat - 48) ≤ 65535 := (le_foldl_digits digits _).trans hle
      have ih := portLoop_digits hrest digits (i + 1) (port * 10 + (c.toNat - 48))
        (fun c' hc' => hdigits c' (List.mem_cons_of_mem _ hc')) hle
      rw [List.cons_append, portLoop, strchr_digit hc, if_neg (by decide), if_pos hc]
      simp only [if_neg (Nat.not_lt.mpr hsmall), ih, List.length_cons, List.foldl_cons]
      rw [Nat.add_right_comm, Nat.add_assoc]

/-- What the loop accepts. -/
theorem portLoop_split : ∀ {text : List UInt8} {i port j port' : ℕ},
    portLoop i port text = some (j, port') → port ≤ 65535 → ∃ digits rest, text = digits ++ rest ∧
      (∀ c ∈ digits, 48 ≤ c ∧ c ≤ 57) ∧ (∀ c ∈ rest.head?, strchr "/?#" c = true) ∧
      port' = digits.foldl (fun port c => port * 10 + (c.toNat - 48)) port ∧ port' ≤ 65535
  | [], i, port, j, port', h, hport => by
      obtain ⟨-, rfl⟩ := Prod.mk.inj (Option.some.inj h)
      exact ⟨[], [], rfl, by simp, by simp, rfl, hport⟩
  | c :: text, i, port, j, port', h, hport => by
      rw [portLoop] at h
      split at h
      next hdelim =>
        obtain ⟨-, rfl⟩ := Prod.mk.inj (Option.some.inj h)
        exact ⟨[], c :: text, rfl, by simp, by simpa using hdelim, rfl, hport⟩
      next =>
        split at h
        next hc =>
          dsimp only at h
          split at h
          next => simp at h
          next hsmall =>
            obtain ⟨digits, rest, rfl, hdigits, hrest, hnumber, hle⟩ :=
              portLoop_split h (Nat.not_lt.mp hsmall)
            refine ⟨c :: digits, rest, rfl, ?_, hrest, hnumber, hle⟩
            exact List.forall_mem_cons.mpr ⟨hc, hdigits⟩
        next => simp at h

/-! ### Hosts and ports -/

section

variable {front rest : List UInt8}

theorem getElem?_length (front rest : List UInt8) : (front ++ rest)[front.length]? = rest.head? := by
  rw [List.getElem?_append_right le_rfl, Nat.sub_self, List.head?_eq_getElem?]

theorem parsePort_absent (h : rest.head? ≠ some 58) :
    parsePort (front ++ rest) front.length = some (443, front.length) := by
  rw [parsePort, getElem?_length, if_neg h]

theorem parsePort_colon (front tail : List UInt8) : parsePort (front ++ 58 :: tail) front.length
    = (portLoop (front.length + 1) 0 tail).bind fun found =>
      if found.2 = 0 then none else some (found.2, found.1) := by
  have hdrop : (front ++ 58 :: tail).drop (front.length + 1) = tail := by
    rw [← List.drop_drop, List.drop_left, List.drop_one, List.tail_cons]
  rw [parsePort, getElem?_length, List.head?_cons, if_pos rfl, hdrop]

theorem parsePort_digits {digits : List UInt8} (hdigits : ∀ c ∈ digits, 48 ≤ c ∧ c ≤ 57)
    (hpos : 0 < portNumber digits) (hle : portNumber digits ≤ 65535)
    (hrest : ∀ c ∈ rest.head?, strchr "/?#" c = true) :
    parsePort (front ++ 58 :: (digits ++ rest)) front.length
      = some (portNumber digits, front.length + 1 + digits.length) := by
  rw [parsePort_colon, portLoop_digits hrest digits _ 0 hdigits hle]
  exact if_neg hpos.ne'

theorem parsePort_split {found : ℕ × ℕ} (h : parsePort (front ++ rest) front.length = some found) :
    rest.head? ≠ some 58 ∨ ∃ digits tail, rest = 58 :: (digits ++ tail) ∧
      (∀ c ∈ digits, 48 ≤ c ∧ c ≤ 57) ∧ 0 < portNumber digits ∧ portNumber digits ≤ 65535 ∧
      ∀ c ∈ tail.head?, strchr "/?#" c = true := by
  by_cases hcolon : rest.head? = some 58
  · refine .inr ?_
    obtain ⟨tail, rfl⟩ : ∃ tail, rest = 58 :: tail := by
      cases rest with
      | nil => simp at hcolon
      | cons c tail => exact ⟨tail, by simpa using hcolon⟩
    rw [parsePort_colon] at h
    obtain ⟨⟨j, port⟩, hloop, hport⟩ := Option.bind_eq_some_iff.mp h
    obtain ⟨digits, rest, rfl, hdigits, hrest, rfl, hle⟩ := portLoop_split hloop (by decide)
    refine ⟨digits, rest, rfl, hdigits, Nat.pos_of_ne_zero fun hzero => ?_, hle, hrest⟩
    rw [portNumber] at hzero
    simp [hzero] at hport
  · exact .inl hcolon

theorem length_scheme : (lit "https://").length = 8 := by decide

theorem parseHost_name {text : List UInt8} (h : (Host.name text).Valid)
    (hrest : ∀ c ∈ rest.head?, strchr ":/?#" c = true) :
    parseHost (lit "https://" ++ (text ++ rest)) = (8, text.length, 8 + text.length) := by
  obtain ⟨hne, hhead, hchars⟩ := h
  have hfirst : (lit "https://" ++ (text ++ rest))[8]? ≠ some 91 := by
    have hget := getElem?_length (lit "https://") (text ++ rest)
    rw [length_scheme] at hget
    rwa [hget, List.head?_append_of_ne_nil _ hne]
  have hscan := scan_append (lit "https://") hchars hrest
  rw [length_scheme] at hscan
  simp only [parseHost, if_neg hfirst, hscan, Nat.add_sub_cancel_left]

theorem parseHost_literal {address : List UInt8} (h : 93 ∉ address) :
    parseHost (lit "https://" ++ (91 :: (address ++ [93]) ++ rest))
      = (9, address.length, 8 + (address.length + 2)) := by
  have hfirst : (lit "https://" ++ (91 :: (address ++ [93]) ++ rest))[8]? = some 91 := by
    have hget := getElem?_length (lit "https://") (91 :: (address ++ [93]) ++ rest)
    rwa [length_scheme] at hget
  have htext : lit "https://" ++ (91 :: (address ++ [93]) ++ rest)
      = (lit "https://" ++ [91]) ++ (address ++ 93 :: rest) := by simp
  have haddress : ∀ c ∈ address, decide (c = 93) = false :=
    fun c hc => decide_eq_false fun heq => h (heq ▸ hc)
  have hclosed : ∀ c ∈ (93 :: rest).head?, decide (c = 93) = true := by simp
  have hscan := scan_append (lit "https://" ++ [91]) haddress hclosed
  have hlen : (lit "https://" ++ [91]).length = 9 := by decide
  rw [← htext, hlen] at hscan
  have hin : 9 + address.length < (lit "https://" ++ (91 :: (address ++ [93]) ++ rest)).length := by
    simp only [List.length_append, List.length_cons, length_scheme]
    omega
  rw [parseHost, if_pos hfirst]
  simp only [hscan, if_pos hin, Nat.add_sub_cancel_left]
  rw [Prod.mk.injEq, Prod.mk.injEq]
  omega

end

/-! ### Addresses -/

theorem colon_of_delim {c : UInt8} (h : strchr "/?#" c = true) : strchr ":/?#" c = true ∧ c ≠ 58 := by
  have hdelims : lit "/?#" = [47, 63, 35] := by decide
  rw [strchr, hdelims, decide_eq_true_eq] at h
  rcases List.mem_cons.mp h with rfl | h
  · decide
  rcases List.mem_cons.mp h with rfl | h
  · decide
  · rw [List.mem_singleton.mp h]
    decide

theorem delim_of_colon {c : UInt8} (h : strchr ":/?#" c = true) (hc : c ≠ 58) :
    strchr "/?#" c = true := by
  have hdelims : lit ":/?#" = 58 :: lit "/?#" := by decide
  rw [strchr, hdelims, decide_eq_true_eq] at h
  exact decide_eq_true ((List.mem_cons.mp h).resolve_left hc)

/-- Where the host begins. -/
def Host.start : Host → ℕ
  | .name _ => 8
  | .literal _ => 9

namespace Parts

variable {p : Parts}

/-- What is behind the host. -/
def tail (p : Parts) : List UInt8 := p.port.elim [] (58 :: ·) ++ p.rest

theorem text_eq (p : Parts) : p.text = lit "https://" ++ (p.host.text ++ p.tail) := by
  rw [text, authority, tail, List.append_assoc]

theorem Valid.parseHost (hp : p.Valid) :
    Client.parseHost p.text = (p.host.start, p.host.bare.length, 8 + p.host.text.length) := by
  have hhost := hp.host
  rw [text_eq]
  cases hname : p.host with
  | name text =>
    rw [hname] at hhost
    refine parseHost_name hhost fun c hc => ?_
    cases hport : p.port with
    | none =>
      have hends := hp.ends hport
      rw [hname] at hends
      rw [tail, hport] at hc
      exact (colon_of_delim (hends c hc)).1
    | some digits =>
      rw [tail, hport] at hc
      obtain rfl : 58 = c := by simpa using hc
      decide
  | literal address =>
    rw [hname] at hhost
    have hlen : (Host.literal address).text.length = address.length + 2 := by simp [Host.text]
    rw [hlen]
    exact parseHost_literal hhost.2

theorem Valid.parsePort (hp : p.Valid) : Client.parsePort p.text (8 + p.host.text.length)
    = some (p.port.elim 443 portNumber, 8 + p.authority.length) := by
  have htext : p.text = (lit "https://" ++ p.host.text) ++ p.tail := by
    rw [text_eq, List.append_assoc]
  have hlen : 8 + p.host.text.length = (lit "https://" ++ p.host.text).length := by
    rw [List.length_append, length_scheme]
  rw [htext, hlen]
  cases hport : p.port with
  | none =>
    have hcolon : p.tail.head? ≠ some 58 := by
      have hends := hp.ends hport
      rw [tail, hport]
      cases hname : p.host with
      | name text =>
        rw [hname] at hends
        exact fun h => (colon_of_delim (hends 58 h)).2 rfl
      | literal address =>
        rw [hname] at hends
        exact hends
    rw [parsePort_absent hcolon, authority, hport]
    simp [length_scheme]
  | some digits =>
    obtain ⟨hdigits, hpos, hle, hrest⟩ := hp.port digits hport
    have htail : p.tail = 58 :: (digits ++ p.rest) := by rw [tail, hport]; rfl
    rw [htail, parsePort_digits hdigits hpos hle hrest, authority, hport]
    simp only [Option.elim_some, List.length_append, List.length_cons, length_scheme]
    rw [Option.some.injEq, Prod.mk.injEq]
    omega

theorem scan_path (p : Parts) : scan (fun c => decide (c = 35)) p.text (8 + p.authority.length)
    = 8 + p.authority.length + p.path.length := by
  have htext : p.text = (lit "https://" ++ p.authority) ++ p.rest := by rw [text, List.append_assoc]
  have hlen : 8 + p.authority.length = (lit "https://" ++ p.authority).length := by
    rw [List.length_append, length_scheme]
  have hsplit : p.rest = p.path ++ p.rest.dropWhile (· ≠ 35) := List.takeWhile_append_dropWhile.symm
  rw [htext, hlen, hsplit]
  refine scan_append _ (fun c hc => ?_) fun c hc => ?_
  · simpa using List.mem_takeWhile_imp hc
  · have hhead := List.head?_dropWhile_not (fun c : UInt8 => decide (c ≠ 35)) p.rest
    rw [Option.mem_def.mp hc] at hhead
    simpa using hhead

theorem Valid.bare_ne_nil (hp : p.Valid) : p.host.bare ≠ [] := by
  have hhost := hp.host
  cases hname : p.host with
  | name text => rw [hname] at hhost; exact hhost.1
  | literal address => rw [hname] at hhost; exact hhost.1

theorem Valid.parseUri (hp : p.Valid) : Client.parseUri p.text = some
    { host := p.host.start
      hostlen := p.host.bare.length
      port := p.port.elim 443 portNumber
      path := if p.path.length = 0 then none else some (8 + p.authority.length)
      pathlen := if p.path.length = 0 then 1 else p.path.length
      hostport := 8
      hostportlen := 8 + p.authority.length - p.host.start } := by
  have hbare := List.length_pos_iff.mpr hp.bare_ne_nil
  have hscheme : ¬ (p.text.length < 9 ∨ p.text.take 8 ≠ lit "https://") := by
    have hlen : p.host.bare.length ≤ p.host.text.length := by
      cases p.host with
      | name text => exact le_rfl
      | literal address => simp only [Host.bare, Host.text, List.length_cons, List.length_append]; omega
    rw [not_or, not_lt, not_ne_iff, text, List.take_left' length_scheme, authority]
    refine ⟨?_, rfl⟩
    simp only [List.length_append, length_scheme]
    omega
  simp only [Client.parseUri, if_neg hscheme, hp.parseHost, if_neg hbare.ne', hp.parsePort,
    Option.map_some, scan_path, Nat.add_sub_cancel_left]

end Parts

/-! ### Copies -/

theorem strcopy_middle (front middle rest : List UInt8) :
    strcopy (front ++ (middle ++ rest)) front.length middle.length = .ok middle := by
  rw [strcopy, if_pos, List.drop_left, List.take_left]
  simp only [List.length_append]
  omega

namespace Parts

variable {p : Parts}

theorem strcopy_host (p : Parts) : strcopy p.text p.host.start p.host.bare.length = .ok p.host.bare := by
  rw [text_eq]
  cases p.host with
  | name text => exact strcopy_middle (lit "https://") text p.tail
  | literal address =>
    have htext : lit "https://" ++ ((Host.literal address).text ++ p.tail)
        = (lit "https://" ++ [91]) ++ (address ++ (93 :: p.tail)) := by simp [Host.text]
    rw [htext]
    exact strcopy_middle (lit "https://" ++ [91]) address (93 :: p.tail)

theorem strcopy_path (p : Parts) :
    strcopy p.text (8 + p.authority.length) p.path.length = .ok p.path := by
  have hsplit : p.rest = p.path ++ p.rest.dropWhile (· ≠ 35) := List.takeWhile_append_dropWhile.symm
  have htext : p.text = (lit "https://" ++ p.authority) ++ (p.path ++ p.rest.dropWhile (· ≠ 35)) := by
    rw [← hsplit, text, List.append_assoc]
  have hlen : 8 + p.authority.length = (lit "https://" ++ p.authority).length := by
    rw [List.length_append, length_scheme]
  rw [htext, hlen]
  exact strcopy_middle _ p.path _

theorem strcopy_hostport (p : Parts) :
    strcopy p.text 8 (8 + p.authority.length - p.host.start) = .ok p.target.hostport := by
  rw [text]
  cases hname : p.host with
  | name text =>
    rw [Host.start, Nat.add_sub_cancel_left, target, hname]
    exact strcopy_middle (lit "https://") p.authority p.rest
  | literal address =>
    -- one character less than the authority has
    have hne : p.authority ≠ [] := by simp [authority, hname, Host.text]
    have hsplit := List.dropLast_append_getLast hne
    have hlen : 8 + p.authority.length - (Host.literal address).start = p.authority.dropLast.length := by
      rw [Host.start, List.length_dropLast]
      omega
    have htext : lit "https://" ++ (p.authority ++ p.rest)
        = lit "https://" ++ (p.authority.dropLast ++ (p.authority.getLast hne :: p.rest)) := by
      conv_lhs => rw [← hsplit]
      simp
    rw [hlen, htext, target, hname]
    exact strcopy_middle (lit "https://") p.authority.dropLast _

theorem copyPath_text (p : Parts) (res : URI)
    (hpath : res.path = if p.path.length = 0 then none else some (8 + p.authority.length))
    (hlen : res.pathlen = if p.path.length = 0 then 1 else p.path.length) :
    copyPath p.text res = .ok p.target.path := by
  by_cases h : p.path.length = 0
  · rw [if_pos h] at hpath hlen
    simp only [copyPath, hpath, hlen, target, List.length_eq_zero_iff.mp h]
    rfl
  · have hne : p.path ≠ [] := fun hnil => h (by rw [hnil]; rfl)
    rw [if_neg h] at hpath hlen
    simp only [copyPath, hpath, hlen, strcopy_path, target, if_neg hne]

theorem Valid.target_text (hp : p.Valid) : Client.target p.text = .ok (some p.target) := by
  rw [Client.target, hp.parseUri]
  simp only [requestInit, strcopy_host, copyPath_text, strcopy_hostport, bind, Except.bind]
  rfl

end Parts

/-- A host that is followed by what a port is looked for in. -/
theorem exists_parts_of_host {host : Host} {tail : List UInt8} {found : ℕ × ℕ} (hhost : host.Valid)
    (hends : tail.head? ≠ some 58 → host.Ends tail)
    (hport : parsePort (lit "https://" ++ (host.text ++ tail)) (8 + host.text.length) = some found) :
    ∃ p : Parts, p.Valid ∧ p.text = lit "https://" ++ (host.text ++ tail) := by
  have hlen : 8 + host.text.length = (lit "https://" ++ host.text).length := by
    rw [List.length_append, length_scheme]
  rw [← List.append_assoc, hlen] at hport
  rcases parsePort_split hport with hcolon | ⟨digits, rest, rfl, hdigits, hpos, hle, hrest⟩
  · refine ⟨⟨host, none, tail⟩, ⟨hhost, fun _ => hends hcolon, fun _ h => by simp at h⟩, ?_⟩
    simp [Parts.text, Parts.authority]
  · refine ⟨⟨host, some digits, rest⟩, ⟨hhost, fun h => by simp at h, fun d h => ?_⟩, ?_⟩
    · obtain rfl := Option.some.inj h
      exact ⟨hdigits, hpos, hle, hrest⟩
    · simp [Parts.text, Parts.authority]

/-- The text behind the scheme begins with a host; without one its length is 0. -/
theorem exists_host (u : List UInt8) : (∃ i j, parseHost (lit "https://" ++ u) = (i, 0, j)) ∨
    ∃ (host : Host) (tail : List UInt8), u = host.text ++ tail ∧ host.Valid ∧
      (tail.head? ≠ some 58 → host.Ends tail) ∧
      parseHost (lit "https://" ++ u) = (host.start, host.bare.length, 8 + host.text.length) := by
  have hfirst := getElem?_length (lit "https://") u
  rw [length_scheme] at hfirst
  by_cases hbracket : u.head? = some 91
  · obtain ⟨v, rfl⟩ : ∃ v, u = 91 :: v := by
      cases u with
      | nil => simp at hbracket
      | cons c v => exact ⟨v, by simpa using hbracket⟩
    obtain ⟨address, rest, rfl, haddress, hrest, hscan⟩ :=
      scan_split (fun c => decide (c = 93)) (lit "https://" ++ [91]) v
    have hnot : 93 ∉ address := fun hmem => by simpa using haddress 93 hmem
    cases rest with
    | nil =>
      -- no closing bracket
      have hlen : (lit "https://" ++ [91]).length = 9 := by decide
      have htext : lit "https://" ++ [91] ++ (address ++ [])
          = lit "https://" ++ 91 :: (address ++ []) := by
        simp
      have hend : (lit "https://" ++ 91 :: (address ++ [])).length = 9 + address.length := by
        simp only [List.length_append, List.length_cons, List.length_nil, length_scheme]
        omega
      rw [htext, hlen] at hscan
      refine .inl ⟨9, 9, ?_⟩
      simp only [parseHost, hfirst, hbracket, if_true, hscan, hend, lt_irrefl, if_false]
    | cons c tail =>
      obtain rfl : c = 93 := by simpa using hrest c (by simp)
      have htext : 91 :: (address ++ 93 :: tail) = 91 :: (address ++ [93]) ++ tail := by simp
      have hhost : parseHost (lit "https://" ++ (91 :: (address ++ [93]) ++ tail)) = _ :=
        parseHost_literal hnot
      rw [htext]
      by_cases hempty : address = []
      · subst hempty
        exact .inl ⟨9, _, hhost⟩
      · refine .inr ⟨.literal address, tail, rfl, ⟨hempty, hnot⟩, id, hhost.trans ?_⟩
        simp [Host.start, Host.bare, Host.text]
  · obtain ⟨text, tail, rfl, htext, htail, hscan⟩ := scan_split (strchr ":/?#") (lit "https://") u
    rw [length_scheme] at hscan
    have hhost : parseHost (lit "https://" ++ (text ++ tail)) = (8, text.length, 8 + text.length) := by
      simp only [parseHost, hfirst, if_neg hbracket, hscan, Nat.add_sub_cancel_left]
    by_cases hempty : text = []
    · subst hempty
      exact .inl ⟨8, _, hhost⟩
    · refine .inr ⟨.name text, tail, rfl, ⟨hempty, ?_, htext⟩, fun hcolon c hc => ?_, hhost⟩
      · rwa [List.head?_append_of_ne_nil _ hempty] at hbracket
      · exact delim_of_colon (htail c hc) fun heq => hcolon (heq ▸ hc)

/-- Only such addresses are accepted. -/
theorem exists_parts {uri : List UInt8} {res : URI} (h : parseUri uri = some res) :
    ∃ p : Parts, p.Valid ∧ p.text = uri := by
  unfold parseUri at h
  split at h
  · simp at h
  next hscheme =>
    rw [not_or, not_lt, not_ne_iff] at hscheme
    obtain ⟨u, rfl⟩ : ∃ u, uri = lit "https://" ++ u :=
      ⟨uri.drop 8, by rw [← hscheme.2, List.take_append_drop]⟩
    rcases exists_host u with ⟨i, j, hnone⟩ | ⟨host, tail, rfl, hvalid, hends, hhost⟩
    · simp [hnone] at h
    · rw [hhost] at h
      dsimp only at h
      split at h
      · simp at h
      · obtain ⟨found, hport, -⟩ := Option.map_eq_some_iff.mp h
        exact exists_parts_of_host hvalid hends hport

/-- For every text: the pieces that a target is made of are copied without a read behind the end, and
    there is a target iff the text can be cut into a host, a port and a rest. It then has the host, the
    port or 443, and the rest up to the fragment; the host and the port as they stand in the text,
    without the last character if the host is in brackets. -/
theorem target_iff (uri : List UInt8) (t : Target) :
    (target uri = .ok (some t) ↔ ∃ p : Parts, p.Valid ∧ p.text = uri ∧ p.target = t) ∧
      (target uri = .ok none ↔ ¬ ∃ p : Parts, p.Valid ∧ p.text = uri) := by
  cases hparse : parseUri uri with
  | none =>
    have htarget : target uri = .ok none := by rw [target, hparse]
    have hnone : ¬ ∃ p : Parts, p.Valid ∧ p.text = uri := by
      rintro ⟨p, hp, rfl⟩
      rw [hp.target_text] at htarget
      simp at htarget
    refine ⟨iff_of_false (by simp [htarget]) ?_, iff_of_true htarget hnone⟩
    rintro ⟨p, hp, htext, -⟩
    exact hnone ⟨p, hp, htext⟩
  | some res =>
    obtain ⟨p, hp, rfl⟩ := exists_parts hparse
    refine ⟨?_, iff_of_false (by simp [hp.target_text]) (not_not.mpr ⟨p, hp, rfl⟩)⟩
    constructor
    · intro h
      refine ⟨p, hp, rfl, ?_⟩
      rw [hp.target_text] at h
      exact Option.some.inj (Except.ok.inj h)
    · rintro ⟨p', hp', htext, rfl⟩
      rw [← htext, hp'.target_text]

/-- The address of a registration. -/
example : target (lit "https://elephant-cte1:9443/client/v2/register")
    = .ok (some ⟨lit "elephant-cte1", 9443, lit "/client/v2/register", lit "elephant-cte1:9443"⟩) := by
  decide

example : target (lit "https://[::1]:9443") = .ok (some ⟨lit "::1", 9443, lit "/", lit "[::1]:944"⟩) := by
  decide

end Elephant.Client
