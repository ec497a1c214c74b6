import Elephant.App.Dispatch
import Elephant.Schemes.Text

/-! Server ids and the test for local clients (`pool/poollayer.coffee`, `api/app/v2/push.coffee`).

    A server id is the text `ip:port`. `dispatch` takes a client for a local one when the server id
    stored with it contains the id of this server, so another server's id may be taken for this one's:

        id of this server        10.0.0.1:8443
        id stored with client   110.0.0.1:8443    contains it: pushed here, not forwarded

    The main result says for exactly which pairs of addresses the test is the comparison it stands
    for. An ip may be any text, with colons or without. -/

namespace Elephant.App
open Elephant.Schemes Elephant.Model Elephant.ClientMap Elephant.Api

/-- `PoolLayer.getServerAddress`. -/
def PoolLayer.getServerAddress (serverIp : String) (APP_PORT : ℕ) : ServerId :=
  serverIp ++ ":" ++ toString APP_PORT

open PoolLayer (getServerAddress)

/-- Pushed here iff the stored id is the one of this server, and otherwise forwarded to exactly the
    stored one; a request that has been forwarded once already is refused instead. -/
structure DispatchesExactly (server : Server) (client : Row) : Prop where
  here : ∀ remoteAddress headers,
    Push.dispatch server remoteAddress headers client = .ok (.toWorker client) ↔
      server.serverId = client.hostname
  forwards : server.serverId ≠ client.hostname → ∀ remoteAddress headers,
    Dispatcher.isForwarded headers = false →
    Push.dispatch server remoteAddress headers client
      = .ok (.toPeer client.hostname (Dispatcher.headers server remoteAddress headers))
  refuses : server.serverId ≠ client.hostname → ∀ remoteAddress headers,
    Dispatcher.isForwarded headers = true →
    Push.dispatch server remoteAddress headers client
      = .error ⟨502, "cannot forward push more than once"⟩

/-- Another address is taken for this one: its ip ends with this ip while its port begins with this
    port, or this address occurs inside its ip. -/
structure Mistaken (ip : String) (port : ℕ) (ip' : String) (port' : ℕ) : Prop where
  other : getServerAddress ip port ≠ getServerAddress ip' port'
  overlap : (ip.toList <:+ ip'.toList ∧ (toString port).toList <+: (toString port').toList) ∨
    (getServerAddress ip port).toList <:+: ip'.toList

section

variable (ip ip' : String) (port port' : ℕ)

theorem getServerAddress_toList :
    (getServerAddress ip port).toList = ip.toList ++ ':' :: (toString port).toList := by
  simp [getServerAddress]

/-- A port is written without a colon. -/
theorem colon_notMem_port : ':' ∉ (toString port).toList := by
  intro hmem
  exact absurd (isDigit_of_mem_toString hmem) (by decide)

/-- Where one address occurs in another. -/
theorem includesText_iff :
    includesText (getServerAddress ip' port') (getServerAddress ip port) = true ↔
      (ip.toList <:+ ip'.toList ∧ (toString port).toList <+: (toString port').toList) ∨
      (getServerAddress ip port).toList <:+: ip'.toList := by
  rw [includesText, decide_eq_true_iff, getServerAddress_toList, getServerAddress_toList]
  exact infix_sep_iff (colon_notMem_port port) (colon_notMem_port port')

end

/-- Without colons, as in IPv4, only the ends count. -/
theorem mistaken_iff_of_noColon {ip ip' : String} {port port' : ℕ} (h : ':' ∉ ip'.toList) :
    Mistaken ip port ip' port' ↔ getServerAddress ip port ≠ getServerAddress ip' port' ∧
      ip.toList <:+ ip'.toList ∧ (toString port).toList <+: (toString port').toList := by
  have hno : ¬ (getServerAddress ip port).toList <:+: ip'.toList := by
    intro hin
    refine h (hin.subset ?_)
    rw [getServerAddress_toList]; simp
  constructor
  · rintro ⟨hne, hends | hin⟩
    · exact ⟨hne, hends⟩
    · exact absurd hin hno
  · rintro ⟨hne, hends⟩
    exact ⟨hne, Or.inl hends⟩

theorem dispatch_of_includes {server : Server} {client : Row}
    (h : includesText client.hostname server.serverId = true) (remoteAddress : String)
    (headers : PlainObject String) :
    Push.dispatch server remoteAddress headers client = .ok (.toWorker client) := by
  rw [Push.dispatch, if_pos h]

theorem dispatch_of_not_includes {server : Server} {client : Row}
    (h : includesText client.hostname server.serverId = false) (remoteAddress : String)
    (headers : PlainObject String) :
    Push.dispatch server remoteAddress headers client
      = Push.forwardPush server remoteAddress headers client.hostname := by
  rw [Push.dispatch, if_neg (by simp [h])]

theorem forwardPush_ne_toWorker {server : Server} {remoteAddress : String}
    {headers : PlainObject String} {serverId : ServerId} {client : Row} :
    Push.forwardPush server remoteAddress headers serverId ≠ .ok (.toWorker client) := by
  unfold Push.forwardPush
  split <;> simp

/-- The test is exact iff the stored id contains the id of this server only as a whole. -/
theorem dispatchesExactly_iff_includes {server : Server} {client : Row} :
    DispatchesExactly server client ↔
      (includesText client.hostname server.serverId = true → server.serverId = client.hostname) := by
  constructor
  · rintro ⟨hhere, -, -⟩ hin
    exact (hhere "" ∅).mp (dispatch_of_includes hin "" ∅)
  · intro h
    have hself : server.serverId = client.hostname →
        includesText client.hostname server.serverId = true := by
      intro heq
      rw [heq, includesText, decide_eq_true_iff]
    have hout : server.serverId ≠ client.hostname →
        includesText client.hostname server.serverId = false := by
      intro hne
      rw [Bool.eq_false_iff]
      exact fun hin => hne (h hin)
    refine ⟨fun remoteAddress headers => ⟨fun hdispatch => ?_, fun heq => ?_⟩,
      fun hne remoteAddress headers hvia => ?_, fun hne remoteAddress headers hvia => ?_⟩
    · by_contra hne
      rw [dispatch_of_not_includes (hout hne)] at hdispatch
      exact forwardPush_ne_toWorker hdispatch
    · exact dispatch_of_includes (hself heq) remoteAddress headers
    · rw [dispatch_of_not_includes (hout hne), Push.forwardPush, hvia]; rfl
    · rw [dispatch_of_not_includes (hout hne), Push.forwardPush, hvia]; rfl

/-- For every two addresses, as the id of this server and the id stored with a client: `dispatch`
    is exact iff the stored one is not mistaken for this one. -/
theorem dispatchesExactly_iff_notMistaken (ip ip' : String) (port port' : ℕ) (server : Server)
    (client : Row) :
    DispatchesExactly { server with serverId := getServerAddress ip port }
        { client with hostname := getServerAddress ip' port' } ↔
      ¬ Mistaken ip port ip' port' := by
  rw [dispatchesExactly_iff_includes]
  show (includesText (getServerAddress ip' port') (getServerAddress ip port) = true →
    getServerAddress ip port = getServerAddress ip' port') ↔ _
  rw [includesText_iff]
  constructor
  · rintro h ⟨hne, hoverlap⟩
    exact hne (h hoverlap)
  · intro hnot hoverlap
    by_contra hne
    exact hnot ⟨hne, hoverlap⟩

/-- A client of `110.0.0.1:8443` is pushed to by the server `10.0.0.1:8443` itself. -/
theorem not_dispatchesExactly_longerIp : ∃ server : Server, ∃ client : Row,
    server.serverId = getServerAddress "10.0.0.1" 8443 ∧
      client.hostname = getServerAddress "110.0.0.1" 8443 ∧
      server.serverId ≠ client.hostname ∧
      Push.dispatch server "127.0.0.1" ∅ client = .ok (.toWorker client) ∧
      ¬ DispatchesExactly server client := by
  have hne : getServerAddress "10.0.0.1" 8443 ≠ getServerAddress "110.0.0.1" 8443 := by
    intro heq
    have hlist := congrArg String.toList heq
    rw [getServerAddress_toList, getServerAddress_toList] at hlist
    exact absurd (List.append_cancel_right hlist) (by decide)
  have hin : includesText (getServerAddress "110.0.0.1" 8443) (getServerAddress "10.0.0.1" 8443)
      = true := by
    rw [includesText_iff]
    exact Or.inl ⟨⟨['1'], by decide⟩, List.prefix_rfl⟩
  refine ⟨⟨getServerAddress "10.0.0.1" 8443, "1.3.0", "host"⟩,
    ⟨"puid-0", "clid-0", getServerAddress "110.0.0.1" 8443, "1"⟩, rfl, rfl, hne, ?_, ?_⟩
  · rw [Push.dispatch]; exact if_pos hin
  · rw [dispatchesExactly_iff_includes]; exact fun h => hne (h hin)

end Elephant.App
