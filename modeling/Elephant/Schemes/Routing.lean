import Mathlib.Data.List.Perm.Basic
import Mathlib.Data.List.TakeWhile

/-! Routes by pattern.

    A pattern is a path some of whose pieces are parameters. A router tries its routes in the order in
    which they were bound, and the first one that matches handles the request:

        pattern ──compile──▶ pieces ──╮
                                      ├──▶ first route for the method that matches ──▶ handler, parameters
        url ──────pieces───▶ texts  ──╯

    The router is a package that is not looked into: what it makes of patterns, urls and methods is a
    parameter, and what is relied on are the laws named in `Lawful`. Whether a slash at the end and the
    case of letters count, and how the text of a parameter is decoded, is left open. At the end is a
    router that keeps the laws. -/

namespace Elephant.Schemes

/-- A piece of a pattern. -/
inductive Piece where
  | text (s : List Char)
  | param (name : List Char)
  deriving DecidableEq, Repr

/-- The parameters of a path. -/
abbrev Params := List (List Char × List Char)

/-- Without a method a route is for all of them. -/
structure Route (η : Type) where
  method : Option String
  url : String
  handler : η
  deriving DecidableEq, Repr

/-- How patterns, urls and methods are read. `same` compares a text of a pattern with a piece of a url,
    `bound` says whether a route is for the method of a request. -/
structure Patterns where
  compile : String → List Piece
  pieces : List Char → Option (List (List Char))
  same : List Char → List Char → Bool
  decode : List Char → List Char
  bound : Option String → String → Bool

/-- A router: the handler of a request, with the parameters of its path. -/
structure RouterPackage extends Patterns where
  dispatch : (η : Type) → List (Route η) → String → List Char → Option (η × Params)

section

variable (R : Patterns)

/-- A parameter matches everything but the empty text. -/
def Piece.exec : Piece → List Char → Option Params
  | .text s, piece => if R.same s piece then some [] else none
  | .param name, piece => if piece = [] then none else some [(name, R.decode piece)]

def execPieces : List Piece → List (List Char) → Option Params
  | [], [] => some []
  | p :: ps, s :: ss => (p.exec R s).bind fun params => (execPieces ps ss).map (params ++ ·)
  | _, _ => none

variable {η : Type}

def Route.exec (method : String) (url : List Char) (r : Route η) : Option Params :=
  if R.bound r.method method then (R.pieces url).bind (execPieces R (R.compile r.url)) else none

def Route.Matches (method : String) (url : List Char) (r : Route η) : Bool :=
  (r.exec R method url).isSome

/-- The first route that matches. -/
def firstMatch (routes : List (Route η)) (method : String) (url : List Char) : Option (η × Params) :=
  routes.findSome? fun r => (r.exec R method url).map fun params => (r.handler, params)

end

/-! ### The laws -/

/-- A text of letters, digits, dashes, underscores and equals signs, and not an empty one. -/
def plain (s : List Char) : Bool :=
  !s.isEmpty && s.all fun c => c.isAlphanum || c == '-' || c == '_' || c == '='

/-- A path of these pieces. -/
def path (ss : List (List Char)) : List Char := ss.flatMap ('/' :: ·)

theorem ne_nil_of_plain {s : List Char} (h : plain s = true) : s ≠ [] := by
  rintro rfl
  exact absurd h (by decide)

theorem notMem_of_plain {c : Char} (hc : plain [c] = false) {s : List Char} (hs : plain s = true) :
    c ∉ s := by
  rw [plain, Bool.and_eq_true, List.all_eq_true] at hs
  intro hmem
  rw [plain, List.all_cons, hs.2 c hmem] at hc
  exact absurd hc (by simp)

theorem notMem_path {c : Char} {ss : List (List Char)} (hslash : c ≠ '/') (hc : plain [c] = false)
    (hss : ∀ s ∈ ss, plain s = true) : c ∉ path ss := by
  intro hmem
  obtain ⟨s, hs, hmem⟩ := List.mem_flatMap.mp hmem
  rcases List.mem_cons.mp hmem with hmem | hmem
  · exact hslash hmem
  · exact notMem_of_plain hc (hss s hs) hmem

namespace Piece

/-- How a piece is written: a parameter is in braces. -/
def written : Piece → List Char
  | .text s => s
  | .param name => '\x7b' :: (name ++ ['\x7d'])

def plain : Piece → Bool
  | .text s => Schemes.plain s
  | .param name => Schemes.plain name

end Piece

/-- What is relied on of a router package. -/
structure RouterPackage.Lawful (R : RouterPackage) : Prop where
  /-- The routes are tried in the order in which they were bound. -/
  first_match : ∀ (η : Type) (routes : List (Route η)) (method : String) (url : List Char),
    R.dispatch η routes method url = firstMatch R.toPatterns routes method url
  /-- A route that is bound by `all` is for `GET` and for `POST`, among others. -/
  all_get : R.bound none "GET" = true
  all_post : R.bound none "POST" = true
  /-- A pattern has the pieces it is written with. -/
  compile_written : ∀ (s : String) (ps : List Piece), ps ≠ [] → ps.all Piece.plain = true →
    s.toList = path (ps.map Piece.written) → R.compile s = ps
  /-- A path is cut at its slashes, and the query is no part of it. -/
  pieces_path : ∀ (ss : List (List Char)) (query : List Char), ss ≠ [] → ss.all plain = true →
    query = [] ∨ query.head? = some '?' → R.pieces (path ss ++ query) = some ss
  /-- A text is the same as itself, and as none of another length. -/
  same_self : ∀ s, R.same s s = true
  same_length : ∀ s t, R.same s t = true → s.length = t.length
  /-- A text without `%` stands for itself. -/
  decode_plain : ∀ s, '%' ∉ s → R.decode s = s

/-! ### What matches -/

section

variable {R : Patterns} {η : Type}

def Piece.Matches (R : Patterns) : Piece → List Char → Prop
  | .text s, piece => R.same s piece = true
  | .param _, piece => piece ≠ []

theorem Piece.exec_isSome {p : Piece} {s : List Char} :
    (p.exec R s).isSome = true ↔ p.Matches R s := by
  cases p with
  | text t => by_cases h : R.same t s = true <;> simp [exec, Matches, h]
  | param name => by_cases h : s = [] <;> simp [exec, Matches, h]

theorem execPieces_isSome : ∀ {ps : List Piece} {ss : List (List Char)},
    (execPieces R ps ss).isSome = true ↔ List.Forall₂ (Piece.Matches R) ps ss
  | [], [] => by simp [execPieces]
  | [], s :: ss => by simp [execPieces]
  | p :: ps, [] => by simp [execPieces]
  | p :: ps, s :: ss => by
      rw [List.forall₂_cons, ← execPieces_isSome, ← Piece.exec_isSome, execPieces]
      cases p.exec R s <;> simp

theorem Route.matches_iff {method : String} {url : List Char} {r : Route η} :
    r.Matches R method url = true ↔ R.bound r.method method = true ∧
      ∃ ss, R.pieces url = some ss ∧ List.Forall₂ (Piece.Matches R) (R.compile r.url) ss := by
  unfold Matches exec
  by_cases hmethod : R.bound r.method method = true
  · rw [if_pos hmethod, and_iff_right hmethod]
    cases R.pieces url with
    | none => simp
    | some ss => simp [execPieces_isSome]
  · simp [hmethod]

/-- Two texts of different lengths do not match the same. -/
def Piece.compatible : Piece → Piece → Bool
  | .text s, .text t => decide (s.length = t.length)
  | _, _ => true

def compatible : List Piece → List Piece → Bool
  | [], [] => true
  | p :: ps, q :: qs => p.compatible q && compatible ps qs
  | _, _ => false

theorem Piece.compatible_of_matches (hlen : ∀ s t, R.same s t = true → s.length = t.length)
    {p q : Piece} {s : List Char} (hp : p.Matches R s) (hq : q.Matches R s) :
    p.compatible q = true := by
  cases p with
  | param name => rfl
  | text t =>
    cases q with
    | param name => rfl
    | text t' => exact decide_eq_true ((hlen t s hp).trans (hlen t' s hq).symm)

theorem compatible_of_forall₂ (hlen : ∀ s t, R.same s t = true → s.length = t.length) :
    ∀ {ps qs : List Piece} {ss : List (List Char)}, List.Forall₂ (Piece.Matches R) ps ss →
    List.Forall₂ (Piece.Matches R) qs ss → compatible ps qs = true
  | _, _, [], .nil, .nil => rfl
  | _, _, _ :: _, .cons hp hps, .cons hq hqs => by
      rw [compatible, Piece.compatible_of_matches hlen hp hq, compatible_of_forall₂ hlen hps hqs]
      rfl

/-- Routes that match the same url have compatible patterns. -/
theorem Route.compatible_of_matches {η' : Type}
    (hlen : ∀ s t, R.same s t = true → s.length = t.length) {method : String} {url : List Char}
    {r : Route η} {r' : Route η'} (h : r.Matches R method url = true)
    (h' : r'.Matches R method url = true) : compatible (R.compile r.url) (R.compile r'.url) = true := by
  obtain ⟨-, ss, hss, hps⟩ := Route.matches_iff.mp h
  obtain ⟨-, ss', hss', hqs⟩ := Route.matches_iff.mp h'
  obtain rfl := Option.some.inj (hss.symm.trans hss')
  exact compatible_of_forall₂ hlen hps hqs

/-! ### Order -/

variable {method : String} {url : List Char} {routes routes' : List (Route η)}

/-- Only the routes that match count. -/
theorem firstMatch_filter (routes : List (Route η)) : firstMatch R routes method url
    = firstMatch R (routes.filter (Route.Matches R method url)) method url := by
  induction routes with
  | nil => rfl
  | cons r routes ih =>
    rw [firstMatch, List.findSome?_cons, List.filter_cons, Route.Matches]
    cases hexec : r.exec R method url with
    | none =>
      simp only [Option.map_none, Option.isSome_none, Bool.false_eq_true, if_false]
      exact ih
    | some params =>
      simp only [Option.map_some, Option.isSome_some, if_true, firstMatch, List.findSome?_cons, hexec]

theorem firstMatch_eq_of_filter (h : routes.filter (Route.Matches R method url)
    = routes'.filter (Route.Matches R method url)) :
    firstMatch R routes method url = firstMatch R routes' method url := by
  rw [firstMatch_filter routes, h, ← firstMatch_filter]

theorem firstMatch_eq_none (h : ∀ r ∈ routes, r.Matches R method url = false) :
    firstMatch R routes method url = none := by
  rw [firstMatch, List.findSome?_eq_none_iff]
  intro r hr
  rw [Option.map_eq_none_iff]
  simpa [Route.Matches] using h r hr

theorem exists_matches (h : firstMatch R routes method url ≠ none) :
    ∃ r ∈ routes, r.Matches R method url = true := by
  by_contra hnone
  exact h (firstMatch_eq_none fun r hr => by simpa using fun hmatch => hnone ⟨r, hr, hmatch⟩)

/-- The first of the routes that match. -/
theorem firstMatch_first {r : Route η} {rest : List (Route η)}
    (h : routes.filter (Route.Matches R method url) = r :: rest) :
    ∃ params, r.exec R method url = some params ∧
      firstMatch R routes method url = some (r.handler, params) := by
  have hmatch : r.Matches R method url = true :=
    List.of_mem_filter (h ▸ List.mem_cons_self : r ∈ routes.filter (Route.Matches R method url))
  obtain ⟨params, hparams⟩ := Option.isSome_iff_exists.mp hmatch
  refine ⟨params, hparams, ?_⟩
  rw [firstMatch_filter, h, firstMatch, List.findSome?_cons, hparams]
  rfl

/-- Another order of the same routes: the routes that match are the same ones. -/
theorem filter_eq_of_perm_singleton {r : Route η} (h : routes.Perm routes')
    (hr : routes'.filter (Route.Matches R method url) = [r]) :
    routes.filter (Route.Matches R method url) = [r] := by
  have hperm := h.filter (Route.Matches R method url)
  rw [hr] at hperm
  exact List.perm_singleton.mp hperm

/-- Two routes that match are tried in their order. -/
theorem filter_eq_of_perm_pair {a b : Route η} (h : routes.Perm routes')
    (hr : routes'.filter (Route.Matches R method url) = [a, b]) (hab : [a, b].Sublist routes) :
    routes.filter (Route.Matches R method url) = [a, b] := by
  have hperm := h.filter (Route.Matches R method url)
  have hsub := hab.filter (Route.Matches R method url)
  have hself : [a, b].filter (Route.Matches R method url) = [a, b] := by
    rw [← hr, List.filter_filter]
    simp
  rw [hself] at hsub
  exact (hsub.eq_of_length (by rw [hperm.length_eq, hr])).symm

end

/-! ### A router that keeps the laws -/

/-- A piece in braces is a parameter. -/
def Piece.ofText (s : List Char) : Piece :=
  match s with
  | '\x7b' :: name => if name.getLast? = some '\x7d' then .param name.dropLast else .text s
  | _ => .text s

/-- The pieces of a path that begins with a slash. -/
def cutAtSlashes : List Char → Option (List (List Char))
  | '/' :: rest => some (rest.splitOn '/')
  | _ => none

/-- The pieces of a pattern. -/
def pattern (s : String) : List Piece := ((cutAtSlashes s.toList).getD []).map Piece.ofText

/-- Texts are compared letter by letter, and nothing is decoded. -/
def exactPatterns : Patterns where
  compile := pattern
  pieces url := cutAtSlashes (url.takeWhile (· ≠ '?'))
  same s t := decide (s = t)
  decode s := s
  bound registered method := registered.all (· = method)

def exactRouter : RouterPackage :=
  { exactPatterns with dispatch := fun _ => firstMatch exactPatterns }

theorem splitOn_path {s : List Char} {ss : List (List Char)} (hs : '/' ∉ s)
    (hss : ∀ t ∈ ss, '/' ∉ t) : (s ++ path ss).splitOn '/' = s :: ss := by
  induction ss generalizing s with
  | nil => rw [path, List.flatMap_nil, List.append_nil, List.splitOn_eq_singleton hs]
  | cons t ss ih =>
    rw [path, List.flatMap_cons, List.cons_append, List.splitOn_append_cons_self_of_not_mem hs]
    exact congrArg _ (ih (hss t List.mem_cons_self) fun u hu => hss u (List.mem_cons_of_mem _ hu))

theorem cutAtSlashes_path {ss : List (List Char)} (hne : ss ≠ []) (hss : ∀ t ∈ ss, '/' ∉ t) :
    cutAtSlashes (path ss) = some ss := by
  obtain ⟨s, ss, rfl⟩ := List.exists_cons_of_ne_nil hne
  rw [path, List.flatMap_cons, List.cons_append, cutAtSlashes]
  exact congrArg some (splitOn_path (hss s List.mem_cons_self)
    fun t ht => hss t (List.mem_cons_of_mem _ ht))

theorem Piece.ofText_written {p : Piece} (h : p.plain = true) : ofText p.written = p := by
  cases p with
  | text s =>
    obtain ⟨c, cs, rfl⟩ := List.exists_cons_of_ne_nil (ne_nil_of_plain h)
    rw [written, ofText]
    rintro name ⟨⟩
    exact notMem_of_plain (by decide) h List.mem_cons_self
  | param name => simp [written, ofText]

theorem Piece.slash_notMem_written {p : Piece} (h : p.plain = true) : '/' ∉ p.written := by
  cases p with
  | text s => exact notMem_of_plain (by decide) h
  | param name => simpa [written] using notMem_of_plain (c := '/') (by decide) h

theorem takeWhile_eq_front {a : Char} {front rest : List Char} (h : a ∉ front)
    (hrest : rest = [] ∨ rest.head? = some a) : (front ++ rest).takeWhile (· ≠ a) = front := by
  have hfront : front.takeWhile (· ≠ a) = front :=
    List.takeWhile_eq_self_iff.mpr fun x hx => decide_eq_true fun heq => h (heq ▸ hx)
  rw [List.takeWhile_append, if_pos (by rw [hfront])]
  rcases hrest with rfl | hrest
  · simp
  · obtain ⟨more, rfl⟩ : ∃ more, rest = a :: more := List.head?_eq_some_iff.mp hrest
    simp

theorem exactRouter_lawful : exactRouter.Lawful where
  first_match _ _ _ _ := rfl
  all_get := rfl
  all_post := rfl
  compile_written s ps hne hplain hs := by
    rw [List.all_eq_true] at hplain
    have hcut : cutAtSlashes s.toList = some (ps.map Piece.written) := by
      rw [hs, cutAtSlashes_path (by simpa using hne)]
      intro t ht
      obtain ⟨p, hp, rfl⟩ := List.mem_map.mp ht
      exact Piece.slash_notMem_written (hplain p hp)
    show pattern s = ps
    rw [pattern, hcut, Option.getD_some, List.map_map]
    exact (List.map_congr_left fun p hp => Piece.ofText_written (hplain p hp)).trans ps.map_id
  pieces_path ss query hne hplain hquery := by
    rw [List.all_eq_true] at hplain
    show cutAtSlashes ((path ss ++ query).takeWhile (· ≠ '?')) = some ss
    have hpath : '?' ∉ path ss := notMem_path (by decide) (by decide) hplain
    rw [takeWhile_eq_front hpath hquery,
      cutAtSlashes_path hne fun t ht => notMem_of_plain (by decide) (hplain t ht)]
  same_self s := decide_eq_true rfl
  same_length s t h := by rw [of_decide_eq_true h]
  decode_plain _ _ := rfl

/-- A pattern that is written with the pieces it has. -/
def wellWritten (s : String) : Bool :=
  !(pattern s).isEmpty && (pattern s).all Piece.plain &&
    decide (s.toList = path ((pattern s).map Piece.written))

/-- All routers agree on such a pattern. -/
theorem RouterPackage.Lawful.compile_eq {R : RouterPackage} (hR : R.Lawful) {s : String}
    (h : wellWritten s = true) : R.compile s = pattern s := by
  simp only [wellWritten, Bool.and_eq_true, Bool.not_eq_true', List.isEmpty_eq_false_iff,
    decide_eq_true_eq] at h
  exact hR.compile_written s (pattern s) h.1.1 h.1.2 h.2

end Elephant.Schemes
