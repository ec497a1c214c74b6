import Elephant.Api.Validate
import Elephant.Schemes.Emitter
import Elephant.Schemes.Utf8

/-! Reading the body of a request (`common/validate.coffee`, `parseJson`).

    The body arrives in chunks of bytes. `body += data` turns every chunk into text on its own, and
    the text that has come together is parsed at the end:

        data c₁, …, data cₙ, end   ──▶   JSON.parse (text of c₁ ++ … ++ text of cₙ)

    The main result says for exactly which chunks this is the text of the whole body. -/

namespace Elephant.Api
open Elephant.Schemes
open Elephant.Push (HttpError)

inductive BodyEvent where
  | data (chunk : List UInt8)
  | ended

inductive BodyEventName where
  | data
  | ended
  deriving DecidableEq, Repr

def BodyEvent.name : BodyEvent → BodyEventName
  | .data _ => .data
  | .ended => .ended

/-- The text so far, and what `next` was called with. -/
structure Reading where
  body : String
  results : List (Next Json)

namespace Validate

variable (L : Library) (req : Request)

/-- `body += data`. -/
def onData : BodyEvent → Reading → Reading
  | .data chunk, r => { r with body := r.body ++ String.ofList (Utf8.decode chunk) }
  | .ended, r => r

def onEnd (_ : BodyEvent) (r : Reading) : Reading :=
  { r with results := r.results ++ [parseJson L { req with body := r.body }] }

/-- The listeners that `parseJson` registers, and what its callback gets from some events. -/
def readJson (events : List BodyEvent) : List (Next Json) :=
  let request := ((Emitter.create ⟨"", []⟩).on .data onData).once .ended (onEnd L req)
  (request.emitAll BodyEvent.name events).state.results

/-- The body that was parsed, or that the json is invalid, whatever the message. -/
def outcomes (chunks : List (List UInt8)) : List (Option Json) :=
  (readJson L req (chunks.map .data ++ [.ended])).map Except.toOption

end Validate

/-- The chunks are read as their bytes in one chunk are, which is the text of all bytes, parsed. -/
structure ReadAsOne (L : Library) (req : Request) (chunks : List (List UInt8)) : Prop where
  one : Validate.outcomes L req chunks = Validate.outcomes L req [chunks.flatten]
  parsed : Validate.outcomes L req chunks
    = [(L.jsonParse (String.ofList (Utf8.decode chunks.flatten))).toOption]

namespace Validate

variable (L : Library) (req : Request)

/-- The chunks before the end. -/
theorem emitAll_data (chunks : List (List UInt8)) (text : String) :
    Emitter.emitAll BodyEvent.name ⟨[⟨.data, false, onData⟩, ⟨.ended, true, onEnd L req⟩], ⟨text, []⟩⟩
        (chunks.map .data)
      = ⟨[⟨.data, false, onData⟩, ⟨.ended, true, onEnd L req⟩],
          ⟨text ++ String.ofList (chunks.flatMap Utf8.decode), []⟩⟩ := by
  induction chunks generalizing text with
  | nil => simp
  | cons chunk chunks ih =>
    rw [List.map_cons, Emitter.emitAll_cons, Emitter.emit_on_once (by decide) (by rfl), onData, ih,
      List.flatMap_cons, String.ofList_append, String.append_assoc]

/-- One call, with the texts of the chunks put together. -/
theorem readJson_chunks (chunks : List (List UInt8)) :
    readJson L req (chunks.map .data ++ [.ended])
      = [parseJson L { req with body := String.ofList (chunks.flatMap Utf8.decode) }] := by
  have hdata := emitAll_data L req chunks ""
  have hregister : ((Emitter.create ⟨"", []⟩).on BodyEventName.data onData).once .ended (onEnd L req)
      = ⟨[⟨.data, false, onData⟩, ⟨.ended, true, onEnd L req⟩], ⟨"", []⟩⟩ := rfl
  rw [readJson]
  simp only [hregister, Emitter.emitAll_append, hdata]
  rw [Emitter.emitAll_cons, Emitter.emit_once (by decide) (by rfl), Emitter.emitAll_nil, onEnd,
    String.empty_append, List.nil_append]

theorem toOption_parseJson : (parseJson L req).toOption = (L.jsonParse req.body).toOption := by
  unfold parseJson
  cases L.jsonParse req.body <;> rfl

theorem outcomes_eq (chunks : List (List UInt8)) : outcomes L req chunks
    = [(L.jsonParse (String.ofList (chunks.flatMap Utf8.decode))).toOption] := by
  rw [outcomes, readJson_chunks, List.map_singleton, toOption_parseJson]

end Validate

theorem readAsOne_of_aligned {chunks : List (List UInt8)} (h : Utf8.aligned chunks = true)
    (L : Library) (req : Request) : ReadAsOne L req chunks := by
  have htext := (Utf8.flatMap_decode_iff chunks).mpr h
  have hone : [chunks.flatten].flatMap Utf8.decode = Utf8.decode chunks.flatten :=
    List.flatMap_singleton _ _
  refine ⟨?_, ?_⟩
  · rw [Validate.outcomes_eq, Validate.outcomes_eq, hone, htext]
  · rw [Validate.outcomes_eq, htext]

/-- A text that is cut between its characters. -/
theorem readAsOne_texts (L : Library) (req : Request) (texts : List (List Char)) :
    ReadAsOne L req (texts.map Utf8.encode) :=
  readAsOne_of_aligned (Utf8.aligned_encode texts) L req

/-- A parser that accepts one text. -/
def onlyReads (text : String) : Library where
  numbers := ⟨fun _ => "", fun _ => .nan⟩
  urlParse _ := .ok none
  jsonParse t := if t = text then .ok .null else .error ""
  base64Decode t := t
  shaDigest t := t
  aesEncrypt _ := .error .library

/-- For every request and every way to cut its body: how it is cut does not matter, for any parser,
    iff no boundary is inside a character. -/
theorem readAsOne_iff_aligned (req : Request) (chunks : List (List UInt8)) :
    (∀ L : Library, ReadAsOne L req chunks) ↔ Utf8.aligned chunks = true := by
  refine ⟨fun h => ?_, fun h L => readAsOne_of_aligned h L req⟩
  have hparsed := (h (onlyReads (String.ofList (Utf8.decode chunks.flatten)))).parsed
  rw [Validate.outcomes_eq, List.singleton_inj] at hparsed
  rw [← Utf8.flatMap_decode_iff]
  by_contra hne
  have htext : String.ofList (chunks.flatMap Utf8.decode)
      ≠ String.ofList (Utf8.decode chunks.flatten) := fun heq => hne (String.ofList_inj.mp heq)
  simp [onlyReads, htext, Except.toOption] at hparsed

/-- The parser reads a quoted text without special characters as that text. -/
def ReadsPlainStrings (L : Library) : Prop :=
  ∀ s : String, s.toList.all (fun c => c ≠ '"' && c ≠ '\\' && 0x20 ≤ c.toNat) = true →
    L.jsonParse ("\"" ++ s ++ "\"") = .ok (.str s)

/-- A parser that takes the quotes off. -/
theorem readsPlainStrings_unquote : ReadsPlainStrings { onlyReads "" with
    jsonParse := fun text => .ok (.str (String.ofList text.toList.tail.dropLast)) } := by
  intro s _
  simp

/-- The body `"é"` with a boundary between the two bytes of the `é`: it is read, as another text. -/
theorem not_readAsOne_splitCharacter : (∃ L, ReadsPlainStrings L) ∧
    ∀ (L : Library) (req : Request), ReadsPlainStrings L →
    Validate.outcomes L req [[0x22, 0xC3, 0xA9, 0x22]] = [some (.str "é")] ∧
      Validate.outcomes L req [[0x22, 0xC3], [0xA9, 0x22]] = [some (.str "��")] ∧
      ¬ ReadAsOne L req [[0x22, 0xC3], [0xA9, 0x22]] := by
  refine ⟨⟨_, readsPlainStrings_unquote⟩, fun L req hL => ?_⟩
  have hwhole : Validate.outcomes L req [[0x22, 0xC3, 0xA9, 0x22]] = [some (.str "é")] := by
    have hparse := hL "é" (by decide)
    have htext : String.ofList ([[0x22, 0xC3, 0xA9, 0x22]].flatMap Utf8.decode) = "\"é\"" := by decide
    rw [Validate.outcomes_eq, htext]
    exact congrArg (fun r => [Except.toOption r]) hparse
  have hcut : Validate.outcomes L req [[0x22, 0xC3], [0xA9, 0x22]] = [some (.str "��")] := by
    have hparse := hL "��" (by decide)
    have htext : String.ofList ([[0x22, 0xC3], [0xA9, 0x22]].flatMap Utf8.decode) = "\"��\"" := by
      decide
    rw [Validate.outcomes_eq, htext]
    exact congrArg (fun r => [Except.toOption r]) hparse
  refine ⟨hwhole, hcut, fun h => ?_⟩
  have hone := h.one
  rw [hcut] at hone
  have heq : [some (Json.str "��")] = [some (.str "é")] := hone.trans hwhole
  simp at heq

end Elephant.Api
