import Elephant.Api.Validate
import Elephant.Schemes.Routing

/-! The routes of the servers (`router/router.coffee`; `bindRouteHandler` of `api/spdyserver.coffee` and
    of `api/appserver.coffee`).

        worker   /client/v2/ack  /client/v2/refresh  /client/v2/register  /client/v2/{pushId}  /profile
        master   /application/v2/{pushId}   /admin/v1/client/{pushId}   /admin/v1/revoked…

    The route of a listen also matches the other three. The main result says which orders of the
    routes do the same as the one they are bound in, and that no url is for both servers, for every
    router package that keeps the laws. -/

namespace Elephant.Router
open Elephant.Schemes Elephant.Model Elephant.Api

def pushRouteV2 : String := "/application/v2/\x7bpushId\x7d"

def registerRouteV2 : String := "/client/v2/register"

def listenRouteV2 : String := "/client/v2/\x7bpushId\x7d"

def ackRouteV2 : String := "/client/v2/ack"

def refreshRouteV2 : String := "/client/v2/refresh"

inductive WorkerHandler where
  | ack
  | refresh
  | register
  | listen
  | profile
  deriving DecidableEq, Repr

inductive AppHandler where
  | push
  | getClient
  | revokeClientId
  | revokePushId
  deriving DecidableEq, Repr

def ackRoute : Route WorkerHandler := ⟨none, ackRouteV2, .ack⟩

def refreshRoute : Route WorkerHandler := ⟨none, refreshRouteV2, .refresh⟩

def registerRoute : Route WorkerHandler := ⟨none, registerRouteV2, .register⟩

def listenRoute : Route WorkerHandler := ⟨none, listenRouteV2, .listen⟩

def profileRoute : Route WorkerHandler := ⟨some "GET", "/profile", .profile⟩

/-- `SpdyServer.bindRouteHandler`. -/
def workerRoutes : List (Route WorkerHandler) :=
  [ackRoute, refreshRoute, registerRoute, listenRoute, profileRoute]

/-- The revocations are for tests. -/
def revokeRoutes : List (Route AppHandler) :=
  [⟨none, "/admin/v1/revokedClientId", .revokeClientId⟩,
    ⟨none, "/admin/v1/revokedPushId", .revokePushId⟩]

def applicationRoutes : List (Route AppHandler) := [⟨none, pushRouteV2, .push⟩]

def adminRoutes (config : Config) : List (Route AppHandler) :=
  ⟨none, "/admin/v1/client/\x7bpushId\x7d", .getClient⟩ ::
    if Json.truthy (config.getConfig "REVOKE_API_ENABLED") then revokeRoutes else []

/-- `AppServer.bindRouteHandler`. -/
def appRoutes (config : Config) : List (Route AppHandler) := applicationRoutes ++ adminRoutes config

/-- The routes that the route of a listen would take requests from. -/
def fixedRoutes : List (Route WorkerHandler) := [ackRoute, refreshRoute, registerRoute]

/-! ### The routes of a worker -/

section

variable {R : RouterPackage} {method : String} {url : List Char} {r : Route WorkerHandler}

/-- A fixed path ends in a short name, where the route of a listen has the push id. -/
theorem fixedRoutes_spec (hr : r ∈ fixedRoutes) : r.method = none ∧ r.handler ≠ .listen ∧
    ∃ name, plain name = true ∧ name.length ≤ 8 ∧
      pattern r.url = [.text "client".toList, .text "v2".toList, .text name] ∧
      r.url.toList = path ["client".toList, "v2".toList, name] := by
  simp only [fixedRoutes, List.mem_cons, List.not_mem_nil, or_false] at hr
  rcases hr with rfl | rfl | rfl
  · exact ⟨rfl, by decide, "ack".toList, by decide, by decide, by decide, by decide⟩
  · exact ⟨rfl, by decide, "refresh".toList, by decide, by decide, by decide, by decide⟩
  · exact ⟨rfl, by decide, "register".toList, by decide, by decide, by decide, by decide⟩

theorem fixedRoutes_subset (hr : r ∈ fixedRoutes) : r ∈ workerRoutes :=
  List.Sublist.subset (by decide) hr

variable (hR : R.Lawful)

include hR

theorem compile_worker (hr : r ∈ workerRoutes) : R.compile r.url = pattern r.url := by
  have hwritten : (workerRoutes.all fun r => wellWritten r.url) = true := by decide
  exact hR.compile_eq (List.all_eq_true.mp hwritten r hr)

theorem compile_listen : R.compile listenRoute.url
    = [.text "client".toList, .text "v2".toList, .param "pushId".toList] :=
  (compile_worker hR (by decide : listenRoute ∈ workerRoutes)).trans (by decide)

/-- A fixed path is one that could be listened at. -/
theorem listenRoute_matches (hr : r ∈ fixedRoutes) (h : r.Matches R.toPatterns method url = true) :
    listenRoute.Matches R.toPatterns method url = true := by
  obtain ⟨hall, -, name, hname, -, hpattern, -⟩ := fixedRoutes_spec hr
  obtain ⟨hmethod, ss, hss, hmatch⟩ := Route.matches_iff.mp h
  rw [hall] at hmethod
  rw [compile_worker hR (fixedRoutes_subset hr), hpattern] at hmatch
  refine Route.matches_iff.mpr ⟨hmethod, ss, hss, ?_⟩
  rw [compile_listen hR]
  cases hmatch with
  | cons hclient hmatch =>
    cases hmatch with
    | cons hversion hmatch =>
      cases hmatch with
      | @cons _ s _ _ hlast hnil =>
        refine .cons hclient (.cons hversion (.cons ?_ hnil))
        rintro rfl
        exact ne_nil_of_plain hname (List.length_eq_zero_iff.mp (hR.same_length _ _ hlast))

theorem not_matches_of_incompatible {η η' : Type} {r : Route η} {r' : Route η'}
    (hr : R.compile r.url = pattern r.url) (hr' : R.compile r'.url = pattern r'.url)
    (hpatterns : compatible (pattern r.url) (pattern r'.url) = false)
    (h : r.Matches R.toPatterns method url = true) : r'.Matches R.toPatterns method url = false := by
  by_contra hmatch
  have hcompatible := Route.compatible_of_matches hR.same_length h (by simpa using hmatch)
  rw [hr, hr', hpatterns] at hcompatible
  exact absurd hcompatible (by decide)

/-- Of two routes of a worker whose patterns are incompatible at most one matches. -/
theorem worker_not_matches (hr : r ∈ workerRoutes) (h : r.Matches R.toPatterns method url = true)
    (r' : Route WorkerHandler) (hr' : r' ∈ workerRoutes)
    (hpatterns : compatible (pattern r.url) (pattern r'.url) = false) :
    r'.Matches R.toPatterns method url = false :=
  not_matches_of_incompatible hR (compile_worker hR hr) (compile_worker hR hr') hpatterns h

/-- Besides a fixed path only the route of a listen matches. -/
theorem filter_of_fixed (hr : r ∈ fixedRoutes) (h : r.Matches R.toPatterns method url = true) :
    workerRoutes.filter (Route.Matches R.toPatterns method url) = [r, listenRoute] := by
  have hlisten := listenRoute_matches hR hr h
  have hothers := worker_not_matches hR (fixedRoutes_subset hr) h
  simp only [fixedRoutes, List.mem_cons, List.not_mem_nil, or_false] at hr
  rcases hr with rfl | rfl | rfl
  · simp [workerRoutes, h, hlisten, hothers refreshRoute (by decide) (by decide),
      hothers registerRoute (by decide) (by decide), hothers profileRoute (by decide) (by decide)]
  · simp [workerRoutes, h, hlisten, hothers ackRoute (by decide) (by decide),
      hothers registerRoute (by decide) (by decide), hothers profileRoute (by decide) (by decide)]
  · simp [workerRoutes, h, hlisten, hothers ackRoute (by decide) (by decide),
      hothers refreshRoute (by decide) (by decide), hothers profileRoute (by decide) (by decide)]

/-- Where no fixed path matches there is at most one route. -/
theorem filter_of_not_fixed (h : ∀ r ∈ fixedRoutes, r.Matches R.toPatterns method url = false) :
    workerRoutes.filter (Route.Matches R.toPatterns method url) = [] ∨
      ∃ r, workerRoutes.filter (Route.Matches R.toPatterns method url) = [r] := by
  obtain ⟨hack, hrefresh, hregister⟩ : ackRoute.Matches R.toPatterns method url = false ∧
      refreshRoute.Matches R.toPatterns method url = false ∧
      registerRoute.Matches R.toPatterns method url = false := by
    simpa [fixedRoutes] using h
  cases hlisten : listenRoute.Matches R.toPatterns method url with
  | true =>
    have hprofile : profileRoute.Matches R.toPatterns method url = false :=
      worker_not_matches hR (by decide) hlisten profileRoute (by decide) (by decide)
    exact .inr ⟨listenRoute, by simp [workerRoutes, hack, hrefresh, hregister, hlisten, hprofile]⟩
  | false =>
    cases hprofile : profileRoute.Matches R.toPatterns method url with
    | true =>
      exact .inr ⟨profileRoute, by simp [workerRoutes, hack, hrefresh, hregister, hlisten, hprofile]⟩
    | false => exact .inl (by simp [workerRoutes, hack, hrefresh, hregister, hlisten, hprofile])

/-- A fixed path matches itself. -/
theorem matches_url (hr : r ∈ fixedRoutes) (hmethod : R.bound none method = true) :
    r.Matches R.toPatterns method r.url.toList = true := by
  obtain ⟨hall, -, name, hname, -, hpattern, hurl⟩ := fixedRoutes_spec hr
  have hpieces : R.pieces r.url.toList = some ["client".toList, "v2".toList, name] := by
    have hplain : ["client".toList, "v2".toList, name].all plain = true := by
      simp only [List.all_cons, List.all_nil, hname]
      decide
    have hpath := hR.pieces_path _ [] (by simp) hplain (.inl rfl)
    rwa [List.append_nil, ← hurl] at hpath
  refine Route.matches_iff.mpr ⟨hall ▸ hmethod, _, hpieces, ?_⟩
  rw [compile_worker hR (fixedRoutes_subset hr), hpattern]
  exact .cons (hR.same_self _) (.cons (hR.same_self _) (.cons (hR.same_self _) .nil))

/-- An order that does the same has the fixed path first: the route of a listen has another handler. -/
theorem sublist_of_firstMatch {routes : List (Route WorkerHandler)}
    (hroutes : routes.Perm workerRoutes) (hr : r ∈ fixedRoutes)
    (hmatch : r.Matches R.toPatterns method url = true)
    (h : firstMatch R.toPatterns routes method url = firstMatch R.toPatterns workerRoutes method url) :
    [r, listenRoute].Sublist routes := by
  have hfilter := filter_of_fixed hR hr hmatch
  have hperm := hroutes.filter (Route.Matches R.toPatterns method url)
  rw [hfilter] at hperm
  obtain ⟨params, -, hbound⟩ := firstMatch_first hfilter
  cases hfirst : routes.filter (Route.Matches R.toPatterns method url) with
  | nil =>
    rw [hfirst] at hperm
    exact absurd hperm.length_eq (by simp)
  | cons a rest =>
    obtain ⟨params', -, hother⟩ := firstMatch_first hfirst
    have hhandler : a.handler = r.handler := by
      rw [hother, hbound] at h
      exact (Prod.mk.inj (Option.some.inj h)).1
    have ha : a = r := by
      have hmem : a ∈ [r, listenRoute] := hperm.subset (by rw [hfirst]; exact List.mem_cons_self)
      rcases List.mem_cons.mp hmem with heq | hmem
      · exact heq
      · rw [List.mem_singleton.mp hmem] at hhandler
        exact absurd hhandler.symm (fixedRoutes_spec hr).2.1
    subst ha
    rw [hfirst] at hperm
    rw [List.perm_singleton.mp hperm.cons_inv] at hfirst
    rw [← hfirst]
    exact List.filter_sublist

/-- The paths of the two servers begin differently. -/
theorem appRoutes_not_matches {config : Config} {r' : Route AppHandler} (hr : r ∈ workerRoutes)
    (hr' : r' ∈ appRoutes config) (h : r.Matches R.toPatterns method url = true) :
    r'.Matches R.toPatterns method url = false := by
  have hsub : r' ∈ applicationRoutes ++ ⟨none, "/admin/v1/client/\x7bpushId\x7d", .getClient⟩ ::
      revokeRoutes := by
    rw [appRoutes, adminRoutes] at hr'
    split at hr'
    · exact hr'
    · exact List.Sublist.subset (by decide) hr'
  have hwritten : ((applicationRoutes ++ ⟨none, "/admin/v1/client/\x7bpushId\x7d", .getClient⟩ ::
      revokeRoutes).all fun r' => wellWritten r'.url) = true := by decide
  have hincompatible : (workerRoutes.all fun r => (applicationRoutes ++
      ⟨none, "/admin/v1/client/\x7bpushId\x7d", .getClient⟩ :: revokeRoutes).all fun r' =>
        !compatible (pattern r.url) (pattern r'.url)) = true := by decide
  refine not_matches_of_incompatible hR (compile_worker hR hr)
    (hR.compile_eq (List.all_eq_true.mp hwritten r' hsub)) ?_ h
  simpa using List.all_eq_true.mp (List.all_eq_true.mp hincompatible r hr) r' hsub

end

/-- For every router package that keeps the laws and every order of the routes of a worker: it handles
    every request as the order they are bound in does iff the route of a listen comes after those of
    acks, refreshes and registrations. And no request is for a worker and for a master. -/
theorem routes_order (R : RouterPackage) (hR : R.Lawful) (routes : List (Route WorkerHandler))
    (hroutes : routes.Perm workerRoutes) :
    ((∀ method url, R.dispatch _ routes method url = R.dispatch _ workerRoutes method url) ↔
        ∀ r ∈ fixedRoutes, [r, listenRoute].Sublist routes) ∧
      ∀ config method url, R.dispatch _ workerRoutes method url ≠ none →
        R.dispatch _ (appRoutes config) method url = none := by
  simp only [hR.first_match]
  refine ⟨⟨fun h r hr => ?_, fun h method url => ?_⟩, fun config method url h => ?_⟩
  · exact sublist_of_firstMatch hR hroutes hr (matches_url hR hr hR.all_get) (h "GET" r.url.toList)
  · refine firstMatch_eq_of_filter ?_
    by_cases hfixed : ∃ r ∈ fixedRoutes, r.Matches R.toPatterns method url = true
    · obtain ⟨r, hr, hmatch⟩ := hfixed
      have hfilter := filter_of_fixed hR hr hmatch
      rw [filter_eq_of_perm_pair hroutes hfilter (h r hr), hfilter]
    · have hnone : ∀ r ∈ fixedRoutes, r.Matches R.toPatterns method url = false := fun r hr => by
        simpa using fun hmatch => hfixed ⟨r, hr, hmatch⟩
      rcases filter_of_not_fixed hR hnone with hfilter | ⟨r, hfilter⟩
      · have hperm := hroutes.filter (Route.Matches R.toPatterns method url)
        rw [hfilter] at hperm ⊢
        exact hperm.eq_nil
      · rw [filter_eq_of_perm_singleton hroutes hfilter, hfilter]
  · obtain ⟨r, hr, hmatch⟩ := exists_matches h
    exact firstMatch_eq_none fun r' hr' => appRoutes_not_matches hR hr hr' hmatch

/-- The fixed paths in another order, and the heap dump before the listen. -/
theorem routes_order_reordered : ∃ routes : List (Route WorkerHandler), routes ≠ workerRoutes ∧
    routes.Perm workerRoutes ∧ exactRouter.Lawful ∧ ∀ method url,
      exactRouter.dispatch _ routes method url = exactRouter.dispatch _ workerRoutes method url := by
  have hperm : [registerRoute, profileRoute, refreshRoute, ackRoute, listenRoute].Perm workerRoutes := by
    decide
  refine ⟨_, by decide, hperm, exactRouter_lawful,
    (routes_order exactRouter exactRouter_lawful _ hperm).1.mpr ?_⟩
  decide

end Elephant.Router
