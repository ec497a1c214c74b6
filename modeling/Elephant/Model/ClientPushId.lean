import Mathlib.Data.List.DropRight
import Elephant.Schemes.Base64
import Elephant.Schemes.Utf8
import Elephant.Refresh.Counter

/-! Client ids and push ids (`model/clientpushid.coffee`).

        clientId ++ SALT ++ refreshCount ──sha1──▶ bytes ──base64──▶ text ──replace──▶ push id
                                    random bytes ──base64──▶ text ──replace──▶ client id

    Nothing separates the three parts of the hashed data. They can still be told apart when the salt
    does not end in a digit: the count is then the longest run of digits at the end. -/

namespace Elephant.Model
open Elephant.Schemes Elephant.Schemes.Base64

namespace ClientId

def BITS : ℕ := 512

/-- `crypto.randomBytes` may throw; the id is then `null`. -/
def generateClientId (randomBytes : ℕ → Option (List UInt8)) : Option ClientId :=
  (randomBytes (BITS / 8)).map fun buf => String.ofList (urlSafe (encode buf))

end ClientId

namespace PushId

def shaDigest (sha1 : String → List UInt8) (data : String) : PushId :=
  String.ofList (urlSafe (encode (sha1 data)))

def generatePushIdWithSalt (sha1 : String → List UInt8) (salt : String) (clientId : ClientId)
    (refreshCount : ℕ) : PushId :=
  shaDigest sha1 (clientId ++ salt ++ toString refreshCount)

end PushId

open ClientId PushId

/-- The push ids of the service are made with its salt. -/
theorem generatePushId_eq (sha1 : String → List UInt8) (salt : String) (clientId : ClientId)
    (refreshCount : ℕ) : Refresh.generatePushId (shaDigest sha1) salt clientId refreshCount
      = generatePushIdWithSalt sha1 salt clientId refreshCount := rfl

/-- Not empty, and its last character is no digit. -/
def EndsInNonDigit (salt : String) : Prop := ∃ c ∈ salt.toList.getLast?, c.isDigit = false

/-! ### The parts of the hashed data -/

/-- The digits after a character that is none. -/
theorem rtakeWhile_digits {c : Char} (hc : c.isDigit = false) (front digits : List Char)
    (hdigits : ∀ x ∈ digits, x.isDigit = true) :
    (front ++ [c] ++ digits).rtakeWhile Char.isDigit = digits := by
  induction digits using List.reverseRecOn with
  | nil => rw [List.append_nil, List.rtakeWhile_concat, if_neg (by simp [hc])]
  | append_singleton digits d ih =>
    have hd : d.isDigit = true := hdigits d (by simp)
    have hrest := ih fun x hx => hdigits x (by simp [hx])
    rw [← List.append_assoc, List.rtakeWhile_concat, if_pos hd, hrest]

theorem rtakeWhile_data {salt : String} (hsalt : EndsInNonDigit salt) (clientId : ClientId) (n : ℕ) :
    (clientId ++ salt ++ toString n).toList.rtakeWhile Char.isDigit = (toString n).toList := by
  obtain ⟨c, hc, hnone⟩ := hsalt
  obtain ⟨hne, heq⟩ := List.mem_getLast?_eq_getLast hc
  have hfront : salt.toList = salt.toList.dropLast ++ [c] := by
    rw [heq]
    exact (List.dropLast_append_getLast hne).symm
  rw [String.toList_append, String.toList_append, hfront, ← List.append_assoc]
  exact rtakeWhile_digits hnone _ _ fun x => isDigit_of_mem_toString

theorem data_injective {salt : String} (hsalt : EndsInNonDigit salt) {c₁ c₂ : ClientId} {n₁ n₂ : ℕ}
    (h : c₁ ++ salt ++ toString n₁ = c₂ ++ salt ++ toString n₂) : c₁ = c₂ ∧ n₁ = n₂ := by
  have hcount : (toString n₁).toList = (toString n₂).toList := by
    rw [← rtakeWhile_data hsalt c₁ n₁, h, rtakeWhile_data hsalt c₂ n₂]
  have hn := toString_inj hcount
  subst hn
  refine ⟨?_, rfl⟩
  have hlist := congrArg String.toList h
  simp only [String.toList_append, List.append_cancel_right_eq] at hlist
  exact String.toList_inj.mp hlist

theorem shaDigest_injective {sha1 : String → List UInt8} (hsha1 : Function.Injective sha1) :
    Function.Injective (shaDigest sha1) := fun _ _ h =>
  hsha1 (urlSafe_encode_injective (String.ofList_injective h))

/-- For every salt that does not end in a digit, different clients and different counts have different
    push ids; every id is safe in a url. -/
theorem generatePushIdWithSalt_injective (sha1 : String → List UInt8)
    (hsha1 : Function.Injective sha1) (salt : String) (hsalt : EndsInNonDigit salt) :
    (∀ c₁ c₂ n₁ n₂, generatePushIdWithSalt sha1 salt c₁ n₁ = generatePushIdWithSalt sha1 salt c₂ n₂ →
        c₁ = c₂ ∧ n₁ = n₂) ∧
      (∀ c n, ∀ x ∈ (generatePushIdWithSalt sha1 salt c n).toList, IsUrlSafe x) ∧
      ∀ randomBytes, ∀ id ∈ generateClientId randomBytes, ∀ x ∈ id.toList, IsUrlSafe x := by
  refine ⟨fun c₁ c₂ n₁ n₂ h => data_injective hsalt (shaDigest_injective hsha1 h), fun c n x hx => ?_,
    fun randomBytes id hid x hx => ?_⟩
  · rw [generatePushIdWithSalt, shaDigest, String.toList_ofList] at hx
    exact isUrlSafe_of_mem hx
  · obtain ⟨buf, -, rfl⟩ := Option.map_eq_some_iff.mp hid
    rw [String.toList_ofList] at hx
    exact isUrlSafe_of_mem hx

theorem utf8_injective : Function.Injective fun data : String => Utf8.encode data.toList := by
  intro data data' h
  have hdecode := congrArg Utf8.decode h
  simp only [Utf8.decode_encode] at hdecode
  exact String.toList_inj.mp hdecode

theorem endsInNonDigit_elephant : EndsInNonDigit "elephant" := ⟨'t', by decide, by decide⟩

/-- The configured salt, with the data itself for its digest. -/
theorem generatePushIdWithSalt_injective_elephant :
    EndsInNonDigit "elephant" ∧
      ∀ c₁ c₂ n₁ n₂,
        generatePushIdWithSalt (fun data => Utf8.encode data.toList) "elephant" c₁ n₁
          = generatePushIdWithSalt (fun data => Utf8.encode data.toList) "elephant" c₂ n₂ →
        c₁ = c₂ ∧ n₁ = n₂ :=
  ⟨endsInNonDigit_elephant,
    (generatePushIdWithSalt_injective _ utf8_injective _ endsInNonDigit_elephant).1⟩

/-- A salt that ends in a digit does not keep the count apart. -/
example : generatePushIdWithSalt (fun data => Utf8.encode data.toList) "1" "c" 11
    = generatePushIdWithSalt (fun data => Utf8.encode data.toList) "1" "c1" 1 := by decide

/-! ### The ids of the service -/

/-- An id for as many random bytes as are asked for. -/
def ClientId.Generated (id : ClientId) : Prop :=
  ∃ randomBytes, (∀ n bs, randomBytes n = some bs → bs.length = n) ∧
    generateClientId randomBytes = some id

/-- An id for a digest of 20 bytes. -/
def PushId.Generated (id : PushId) : Prop :=
  ∃ sha1 salt clientId refreshCount, (∀ data, (sha1 data).length = 20) ∧
    generatePushIdWithSalt sha1 salt clientId refreshCount = id

theorem ClientId.Generated.spec {id : ClientId} (h : ClientId.Generated id) :
    id.toList.length = 88 ∧ ∀ x ∈ id.toList, IsUrlSafe x := by
  obtain ⟨randomBytes, hlen, hid⟩ := h
  obtain ⟨buf, hbuf, rfl⟩ := Option.map_eq_some_iff.mp hid
  rw [String.toList_ofList]
  refine ⟨?_, fun x => isUrlSafe_of_mem⟩
  rw [length_urlSafe, length_encode, hlen _ _ hbuf]
  rfl

/-- No object inherits a property of this name. -/
theorem ClientId.Generated.notMem_protoNames {id : ClientId} (h : ClientId.Generated id) :
    id ∉ protoNames :=
  PlainObject.notMem_protoNames_of_lt (by rw [← String.length_toList, h.spec.1]; omega)

/-- An id is generated for every byte that is drawn again and again. -/
theorem ClientId.Generated.repeated (b : UInt8) :
    ClientId.Generated (String.ofList (urlSafe (encode (List.replicate 64 b)))) :=
  ⟨fun n => some (List.replicate n b), fun n bs h => by
    rw [← Option.some.inj h, List.length_replicate], rfl⟩

theorem PushId.Generated.spec {id : PushId} (h : PushId.Generated id) :
    id.toList.length = 28 ∧ ∀ x ∈ id.toList, IsUrlSafe x := by
  obtain ⟨sha1, salt, clientId, refreshCount, hlen, rfl⟩ := h
  rw [generatePushIdWithSalt, shaDigest, String.toList_ofList]
  refine ⟨?_, fun x => isUrlSafe_of_mem⟩
  rw [length_urlSafe, length_encode, hlen]

end Elephant.Model
