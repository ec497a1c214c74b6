import Elephant.Schemes.Stringify
import Elephant.Api.Handlers

/-! The messages that carry a JSON text (`common/request.coffee`, `jsonify`; `api/v2/listen.coffee`,
    `configify`; `api/spdyhandler.coffee`, `serverPush`).

    Each of the three announces `text.length`, which counts UTF-16 code units, and writes the text as
    UTF-8:

        code point    below 80   below 800   below 10000   above
        code units        1          1            1          2
        bytes             1          2            3          4

    The main result says for exactly which values the announced length is the one of the body. -/

namespace Elephant.Api
open Elephant.Schemes

/-- What is written for a message; a pushed stream has no status. -/
structure Sent where
  status : Option ℕ
  contentType : String
  contentLength : ℕ
  body : List UInt8

def send (status : Option ℕ) (contentType text : String) : Sent where
  status := status
  contentType := contentType
  contentLength := utf16Length text
  body := Utf8.encode text.toList

section

variable (N : NumberText)

def jsonify (status : ℕ) (json : Json) : Sent :=
  send (some status) "application/json" (json.stringify N)

def Listen.configify (status : ℕ) (json : Json) : Sent :=
  send (some status) "application/x-elephant-config-json" (json.stringify N)

namespace SpdyHandler

def pushData (requestId : String) (data : Json) : String :=
  Json.stringify N (.obj [("request_id", .str requestId), ("data", data)])

/-- The stream that `serverPush` pushes. -/
def pushed (requestId : String) (data : Json) : Sent :=
  send none "application/json" (pushData N requestId data)

end SpdyHandler

end

/-- The announced length is the number of bytes that follow. -/
def Framed (m : Sent) : Prop := m.contentLength = m.body.length

instance (m : Sent) : Decidable (Framed m) := inferInstanceAs (Decidable (_ = _))

/-- The length is never announced too large, so what does not fit is cut off. -/
theorem contentLength_le (status : Option ℕ) (contentType text : String) :
    (send status contentType text).contentLength ≤ (send status contentType text).body.length := by
  have h := (utf16Length_encode text.toList).1
  rwa [String.ofList_toList] at h

theorem framed_send (status : Option ℕ) (contentType text : String) :
    Framed (send status contentType text) ↔ IsAscii text.toList := by
  have h := (utf16Length_encode text.toList).2
  rwa [String.ofList_toList] at h

theorem framed_send_stringify (N : NumberText) (status : Option ℕ) (contentType : String) (v : Json) :
    Framed (send status contentType (v.stringify N)) ↔ v.Ascii N := by
  rw [framed_send, Json.stringify, String.toList_ofList, Json.isAscii_write]

/-- The names in a pushed object are ASCII. -/
theorem framed_pushed (N : NumberText) (requestId : String) (data : Json) :
    Framed (SpdyHandler.pushed N requestId data) ↔ IsAscii requestId.toList ∧ data.Ascii N := by
  have hid : IsAscii "request_id".toList := by decide
  have hdata : IsAscii "data".toList := by decide
  have hne : ¬ "request_id" ∈ [("data", data)].map Prod.fst := by simp
  rw [SpdyHandler.pushed, SpdyHandler.pushData, framed_send_stringify]
  simp only [Json.Ascii, Json.AsciiMembers, hid, hdata, hne, List.map_nil, List.not_mem_nil, false_or,
    true_and, and_true]

/-- A response, the configuration of a listen and a push are framed iff all strings in the value are
    ASCII. -/
theorem framed_iff_ascii (N : NumberText) :
    (∀ status json, Framed (jsonify N status json) ↔ json.Ascii N) ∧
      (∀ status json, Framed (Listen.configify N status json) ↔ json.Ascii N) ∧
      ∀ requestId data, Framed (SpdyHandler.pushed N requestId data) ↔
        IsAscii requestId.toList ∧ data.Ascii N :=
  ⟨fun status json => framed_send_stringify N (some status) _ json,
    fun status json => framed_send_stringify N (some status) _ json, framed_pushed N⟩

/-- The text `"é"` has three code units and four bytes; so every push of it is cut off as well. -/
theorem not_framed_eAcute : ¬ IsAscii "é".toList ∧ ∀ N : NumberText,
    (jsonify N 200 (.str "é")).contentLength = 3 ∧ (jsonify N 200 (.str "é")).body.length = 4 ∧
      ¬ Framed (jsonify N 200 (.str "é")) ∧
      ∀ requestId, ¬ Framed (SpdyHandler.pushed N requestId (.str "é")) := by
  have hnot : ¬ IsAscii "é".toList := by decide
  refine ⟨hnot, fun N => ?_⟩
  have htext : (Json.stringify N (.str "é")).toList = quote "é" := String.toList_ofList
  refine ⟨?_, ?_, ?_, fun requestId => ?_⟩
  · rw [jsonify, send, utf16Length, htext]; decide
  · rw [jsonify, send, htext]; exact (by decide : (Utf8.encode (quote "é")).length = 4)
  · rw [jsonify, framed_send_stringify, Json.Ascii]; exact hnot
  · rw [framed_pushed, Json.Ascii]; exact fun h => hnot h.2

end Elephant.Api
