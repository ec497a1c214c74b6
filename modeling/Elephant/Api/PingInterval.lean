import Mathlib.Tactic.Linarith
import Mathlib.Tactic.NormNum
import Mathlib.Tactic.Ring
import Elephant.Schemes.Stringify
import Elephant.Api.Spdy

/-! The ping interval of a listen request (`api/v2/listen.coffee`, `_setSocketTimeout`).

        v ──▶ socketTimeoutSec = max MIN_SOCKET_TIMEOUT_SEC (2 v) ──· 1000──▶ socket.setTimeout
                                                                 ╰──/ 2────▶ pingIntervalSec

    `Number` reads the text `Infinity`, and infinity is positive: it is accepted, the socket ignores
    it, and the client is told `null`. A timer takes at most 2³¹ - 1 milliseconds, and a longer timeout
    is cut to that, while the client is told the whole interval. -/

namespace Elephant.Api
open Elephant.Schemes

namespace Listen

/-- `Math.max minSocketTimeoutSec, minPingIntervalSec * 2`. -/
def socketTimeoutSec (minSocketTimeoutSec : ℚ) : JsNum → JsNum
  | .nan => .nan
  | .negInf => .fin minSocketTimeoutSec
  | .fin q => .fin (max minSocketTimeoutSec (q * 2))
  | .posInf => .posInf

/-- The longest timeout of node's timers, in milliseconds. -/
def TIMEOUT_MAX : ℚ := 2147483647

/-- `socket.setTimeout` of as many seconds, in milliseconds; what is not finite is ignored, as is what
    is not positive, and what is longer than a timer can be is cut. -/
def setTimeout : JsNum → Option ℚ
  | .fin sec => if 0 < sec * 1000 then some (min (sec * 1000) TIMEOUT_MAX) else none
  | _ => none

/-- The timeout that is installed. -/
def setSocketTimeout (minSocketTimeoutSec : ℚ) (minPingIntervalSec : JsNum) : Option ℚ :=
  setTimeout (socketTimeoutSec minSocketTimeoutSec minPingIntervalSec)

/-- The query is accepted with the value `v`. -/
def Accepts (L : Library) (req : Request) (v : JsNum) : Prop :=
  (validateMinPingInterval L req ()).2 = .calls [.ok v]

/-- The client and the socket agree on the interval `v`: what is reported is a finite number of
    seconds and at least `v`, the timeout is twice that and at least the minimum, and both grow with
    the value that is asked for. -/
structure Agreed (minSocketTimeoutSec : ℚ) (v : JsNum) : Prop where
  agree : ∃ sec ms, pingIntervalSec minSocketTimeoutSec v = .fin sec ∧
    setSocketTimeout minSocketTimeoutSec v = some ms ∧ v.gt sec = false ∧
    minSocketTimeoutSec * 1000 ≤ ms ∧ ms = 2 * sec * 1000
  mono : ∀ q q' sec sec' ms ms', v = .fin q → q ≤ q' →
    pingIntervalSec minSocketTimeoutSec v = .fin sec →
    pingIntervalSec minSocketTimeoutSec (.fin q') = .fin sec' →
    setSocketTimeout minSocketTimeoutSec v = some ms →
    setSocketTimeout minSocketTimeoutSec (.fin q') = some ms' → sec ≤ sec' ∧ ms ≤ ms'

/-! ### Accepted values -/

theorem setTimeout_eq_some {sec ms : ℚ} :
    setTimeout (.fin sec) = some ms ↔ 0 < sec * 1000 ∧ ms = min (sec * 1000) TIMEOUT_MAX := by
  rw [setTimeout]
  split
  next h => rw [Option.some.injEq, eq_comm, and_iff_right h]
  next h => exact iff_of_false (by simp) fun hsome => h hsome.1

theorem setSocketTimeout_fin {m q : ℚ} (hq : 0 < q) :
    setSocketTimeout m (.fin q) = some (min (max m (q * 2) * 1000) TIMEOUT_MAX) := by
  refine setTimeout_eq_some.mpr ⟨?_, rfl⟩
  have hmax := le_max_right m (q * 2)
  linarith

theorem accepts_iff {L : Library} {req : Request} {v : JsNum} : Accepts L req v ↔
    minPingMissing req.minPingIntervalSec = false ∧
      minPingNumber L req.minPingIntervalSec = v ∧ notPositive v = false := by
  unfold Accepts validateMinPingInterval
  cases hmissing : minPingMissing req.minPingIntervalSec with
  | true => simp
  | false =>
    cases hpos : notPositive (minPingNumber L req.minPingIntervalSec) with
    | true =>
      refine iff_of_false (by simp [hpos]) ?_
      rintro ⟨-, rfl, hv⟩
      rw [hpos] at hv
      exact Bool.noConfusion hv
    | false =>
      simp only [hpos, Bool.false_eq_true, if_false, List.nil_append, Reply.calls.injEq,
        List.cons.injEq, Except.ok.injEq, and_true, true_and]
      constructor
      · rintro rfl
        exact ⟨rfl, hpos⟩
      · exact And.left

/-- A value that is not refused is a positive number or infinity. -/
theorem notPositive_eq_false {v : JsNum} (h : notPositive v = false) :
    (∃ q, v = .fin q ∧ 0 < q) ∨ v = .posInf := by
  cases v with
  | nan => exact absurd h (by decide)
  | negInf => exact absurd h (by decide)
  | fin q => exact .inl ⟨q, rfl, not_le.mp (of_decide_eq_false h)⟩
  | posInf => exact .inr rfl

/-- The timeout that the client reckons with is one that a timer can have. -/
def Fits (minSocketTimeoutSec : ℚ) (v : JsNum) : Prop :=
  ∃ q, v = .fin q ∧ max minSocketTimeoutSec (q * 2) * 1000 ≤ TIMEOUT_MAX

theorem Agreed.fits {m q : ℚ} (hq : 0 < q) (h : Agreed m (.fin q)) : Fits m (.fin q) := by
  obtain ⟨sec, ms, hsec, hms, -, -, htwice⟩ := h.agree
  obtain rfl : max m (q * 2) / 2 = sec := JsNum.fin.inj hsec
  rw [setSocketTimeout_fin hq, Option.some.injEq] at hms
  refine ⟨q, rfl, ?_⟩
  calc max m (q * 2) * 1000 = ms := by rw [htwice]; ring
    _ ≤ TIMEOUT_MAX := hms ▸ min_le_right _ _

theorem agreed_fin {m q : ℚ} (hq : 0 < q) (hfits : max m (q * 2) * 1000 ≤ TIMEOUT_MAX) :
    Agreed m (.fin q) := by
  have hms := setSocketTimeout_fin (m := m) hq
  rw [min_eq_left hfits] at hms
  constructor
  · refine ⟨_, _, rfl, hms, ?_, ?_, by ring⟩
    · refine decide_eq_false ?_
      have hmax := le_max_right m (q * 2)
      linarith
    · have hmax := le_max_left m (q * 2)
      linarith
  · rintro q₁ q' sec sec' ms ms' ⟨⟩ hle ⟨⟩ ⟨⟩ hms hms'
    have hmax : max m (q * 2) ≤ max m (q' * 2) := max_le_max_left m (by linarith)
    obtain ⟨-, rfl⟩ := setTimeout_eq_some.mp hms
    obtain ⟨-, rfl⟩ := setTimeout_eq_some.mp hms'
    exact ⟨by linarith, min_le_min_right _ (by linarith)⟩

theorem not_agreed_posInf (m : ℚ) : ¬ Agreed m .posInf := by
  rintro ⟨⟨sec, ms, hsec, -⟩, -⟩
  exact JsNum.noConfusion hsec

/-- For every accepted query: the client and the socket agree iff the value is finite and its timeout
    is one that a timer can have. -/
theorem agreed_iff_fits (L : Library) (config : Config) (req : Request) (v : JsNum)
    (h : Accepts L req v) :
    Agreed config.MIN_SOCKET_TIMEOUT_SEC v ↔ Fits config.MIN_SOCKET_TIMEOUT_SEC v := by
  rcases notPositive_eq_false (accepts_iff.mp h).2.2 with ⟨q, rfl, hq⟩ | rfl
  · constructor
    · exact Agreed.fits hq
    · rintro ⟨_, ⟨⟩, hfits⟩
      exact agreed_fin hq hfits
  · refine iff_of_false (not_agreed_posInf _) ?_
    rintro ⟨q, ⟨⟩, -⟩

/-- A library that reads this one number. -/
def readsNumber (text : String) (number : JsNum) : Library where
  numbers := ⟨fun _ => "", fun text' => if text' = text then number else .nan⟩
  urlParse _ := .ok none
  jsonParse _ := .error ""
  base64Decode text := text
  shaDigest text := text
  aesEncrypt _ := .error .library

/-- A listen request with this query. -/
def pingRequest (text : String) : Request where
  method := "GET"
  headers := ∅
  isSpdy := true
  minPingIntervalSec := [text]
  body := ""
  pushId := "puid-0"

theorem agreed_sixty : Accepts (readsNumber "60" (.fin 60)) (pingRequest "60") (.fin 60) ∧
    Agreed Config.default.MIN_SOCKET_TIMEOUT_SEC (.fin 60) := by
  have h : Accepts (readsNumber "60" (.fin 60)) (pingRequest "60") (.fin 60) :=
    accepts_iff.mpr ⟨by decide, by decide, by decide⟩
  exact ⟨h, (agreed_iff_fits _ Config.default _ _ h).mpr
    ⟨60, rfl, by norm_num [Config.default, TIMEOUT_MAX]⟩⟩

/-- Infinity is accepted; no timeout is installed, and the interval is written as `null`. An interval of
    2000000 seconds is reported as such, and the timeout is not twice as long but a timer's longest. -/
theorem not_agreed_infinity :
    (Accepts (readsNumber "Infinity" .posInf) (pingRequest "Infinity") .posInf ∧
      ∀ (L : Library) (config : Config), L.numbers.ofText "Infinity" = .posInf →
        Accepts L (pingRequest "Infinity") .posInf ∧
        setSocketTimeout config.MIN_SOCKET_TIMEOUT_SEC .posInf = none ∧
        Json.write L.numbers (.num (pingIntervalSec config.MIN_SOCKET_TIMEOUT_SEC .posInf))
          = "null".toList ∧
        ¬ Agreed config.MIN_SOCKET_TIMEOUT_SEC .posInf) ∧
    Accepts (readsNumber "2000000" (.fin 2000000)) (pingRequest "2000000") (.fin 2000000) ∧
      pingIntervalSec Config.default.MIN_SOCKET_TIMEOUT_SEC (.fin 2000000) = .fin 2000000 ∧
      setSocketTimeout Config.default.MIN_SOCKET_TIMEOUT_SEC (.fin 2000000) = some 2147483647 ∧
      ¬ Agreed Config.default.MIN_SOCKET_TIMEOUT_SEC (.fin 2000000) := by
  have haccepts : ∀ L : Library, L.numbers.ofText "Infinity" = .posInf →
      Accepts L (pingRequest "Infinity") .posInf :=
    fun L hL => accepts_iff.mpr ⟨by decide, hL, rfl⟩
  constructor
  · refine ⟨haccepts _ (by decide), fun L config hL => ⟨haccepts L hL, rfl, ?_, not_agreed_posInf _⟩⟩
    rw [Json.write]
    rfl
  · have hmax : max Config.default.MIN_SOCKET_TIMEOUT_SEC (2000000 * 2) = 4000000 := by
      norm_num [Config.default]
    refine ⟨accepts_iff.mpr ⟨by decide, by decide, by decide⟩, ?_, ?_, fun h => ?_⟩
    · rw [pingIntervalSec, hmax]; norm_num
    · rw [setSocketTimeout_fin (by norm_num), hmax]; norm_num [TIMEOUT_MAX]
    · obtain ⟨_, ⟨⟩, hfits⟩ := h.fits (by norm_num)
      rw [hmax] at hfits
      norm_num [TIMEOUT_MAX] at hfits

end Listen

end Elephant.Api
