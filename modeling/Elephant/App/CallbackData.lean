import Elephant.Api.BasicAuth
import Elephant.Api.FieldSizes
import Elephant.App.LocalPush

/-! Callback data through the table (`api/app/v2/push.coffee`, `persistence/mysqlpushrequest.coffee`,
    `model/pushRequestModel.coffee`, `common/helper.coffee`, `push/callback.coffee`).

    What an app submits is stored in columns of type `Sequelize.STRING`, the password encrypted, and
    read back when the callback is built:

        url       ─────────────▶ VARCHAR(255) ─────────────▶ requestOptions.url
        username  ─────────────▶ VARCHAR(255) ─────────────▶ requestOptions.auth, if not null
        password  ──encrypt────▶ VARCHAR(255) ──decrypt────▶ requestOptions.auth

    The limit of `parsePushMessage` for a username or a password is 1024, and there is none for a url.
    The main result says for which accepted bodies the callback posts what was submitted: those whose
    url, username and encrypted password are not longer than a column is wide. -/

namespace Elephant.App
open Elephant.Schemes Elephant.Model Elephant.ClientMap Elephant.Api
open Elephant.Push (HttpError CallbackInfo PushRequest RequestOptions PushCallback)
open Elephant.Push.PushCallback (statusOf)

/-- A `Sequelize.STRING` column: what it holds once a value is written, `none` if the insert is
    refused. Only a text of at most 255 characters is held unchanged. -/
structure Varchar where
  store : Json → Option String
  fits : ∀ s : String, s.length ≤ 255 → store (.str s) = some s
  long : ∀ s : String, 255 < s.length → store (.str s) ≠ some s

namespace Varchar

/-- An undefined value is stored as `NULL`. -/
def column (V : Varchar) : Option Json → Option (Option String)
  | none => some none
  | some v => (V.store v).map some

end Varchar

/-- The columns of a stored push request that are about its callback. -/
structure CallbackColumns where
  callbackUrl : Option String
  callbackUsername : Option String
  callbackPassword : Option String

def PushRow.save (row : PushRow) (V : Varchar) : Option CallbackColumns := do
  let url ← V.column row.callbackUrl
  let username ← V.column row.callbackUsername
  let password ← V.column (row.callbackPassword.map .str)
  return ⟨url, username, password⟩

/-- What the constructor of `PushCallback` reads, with the password decrypted. -/
def CallbackColumns.pushRequest (columns : CallbackColumns) (aesDecrypt : String → String)
    (row : PushRow) : PushRequest where
  pushIndex := row.pushIndex
  requestId := row.requestId
  clientId := row.clientId
  callbackUrl := columns.callbackUrl
  callbackUsername := columns.callbackUsername
  callbackPassword := columns.callbackPassword.map aesDecrypt

/-- The url, the username and the password of a callback are strings, the latter two if they are
    there. -/
structure Submits (callback : Json) (info : CallbackInfo) : Prop where
  url : field callback "url" = some (.str info.url)
  username : field callback "username" = info.username.map .str
  password : field callback "password" = info.password.map .str

/-- The credentials, if they were supplied. -/
def supplied (info : CallbackInfo) : Option (String × Option String) :=
  match info.username, info.password with
  | some u, some p => if u ≠ "" ∧ p ≠ "" then some (u, some p) else none
  | _, _ => none

section

variable (L : Library) (V : Varchar) (aesDecrypt : String → String)

/-- Decryption undoes encryption. -/
def DecryptionUndoes : Prop := ∀ p : String, ∃ e, L.aesEncrypt (.str p) = .ok e ∧ aesDecrypt e = p

/-- The row is stored, and the callback that is built from it posts to the submitted url, with the
    credentials that were supplied. -/
def Restores (info : CallbackInfo) (row : PushRow) : Prop :=
  ∃ columns, row.save V = some columns ∧ ∀ error,
    (PushCallback.create (columns.pushRequest aesDecrypt row) error).requestOptions
      = ⟨some info.url, row.requestId, statusOf error, supplied info⟩

/-- Every push with these parameters that is handed to the table is restored. -/
def Survives (params : Api.Push.Params) (info : CallbackInfo) : Prop :=
  ∀ db client s s' row, Push.createPushRequest L db client params s = (s', .calls [.ok row]) →
    Restores V aesDecrypt info row

/-- The url, the username and the encrypted password have at most 255 characters, and a username is not
    empty. -/
structure Fits (info : CallbackInfo) : Prop where
  url : info.url.length ≤ 255
  username : ∀ u, info.username = some u → u ≠ "" ∧ u.length ≤ 255
  password : ∀ p e, info.password = some p → L.aesEncrypt (.str p) = .ok e → e.length ≤ 255

/-- Nothing but the encrypted text is decrypted to what was encrypted. -/
def DecryptsOnly : Prop :=
  ∀ p e held, L.aesEncrypt (.str p) = .ok e → aesDecrypt held = p → held = e

/-- By columns: the url and the username fit, a username is not empty, and what is kept of the
    encrypted password is decrypted to the password if there is a username. -/
structure Storable (info : CallbackInfo) : Prop where
  url : info.url.length ≤ 255
  username : ∀ u, info.username = some u → u ≠ "" ∧ u.length ≤ 255
  password : ∀ p e, info.password = some p → L.aesEncrypt (.str p) = .ok e →
    ∃ held, V.store (.str e) = some held ∧ (info.username ≠ none → aesDecrypt held = p)

end

/-! ### The stored row -/

theorem Varchar.store_iff (V : Varchar) (s : String) :
    V.store (.str s) = some s ↔ s.length ≤ 255 := by
  refine ⟨fun h => ?_, V.fits s⟩
  by_contra hlong
  exact V.long s (by omega) h

theorem callbackField_str {c : Json} {name : String} (text : Option String)
    (h : field c name = text.map .str) : Push.callbackField (some c) name = text.map .str := by
  rw [Push.callbackField, Option.bind_some, h]
  cases text <;> rfl

section

variable {L : Library} {V : Varchar} {aesDecrypt : String → String} {params : Api.Push.Params}
  {c : Json} {info : CallbackInfo}

/-- The columns of a row that was created from a callback. -/
structure CreatedFrom (L : Library) (info : CallbackInfo) (row : PushRow) : Prop where
  url : row.callbackUrl = some (.str info.url)
  username : row.callbackUsername = info.username.map .str
  password : info.password.map (fun p => L.aesEncrypt (.str p)) = row.callbackPassword.map .ok

theorem CreatedFrom.password_cases {row : PushRow} (h : CreatedFrom L info row) :
    (info.password = none ∧ row.callbackPassword = none) ∨
      ∃ p e, info.password = some p ∧ L.aesEncrypt (.str p) = .ok e ∧
        row.callbackPassword = some e := by
  have hpassword := h.password
  cases hp : info.password with
  | none =>
    rw [hp] at hpassword
    exact Or.inl ⟨rfl, Option.map_eq_none_iff.mp hpassword.symm⟩
  | some p =>
    rw [hp] at hpassword
    obtain ⟨e, he, hok⟩ := Option.map_eq_some_iff.mp hpassword.symm
    exact Or.inr ⟨p, e, rfl, hok.symm, he⟩

theorem addPushRequest_ok {db : PushAnswers} {client : Row} {callback : Option Json}
    {password : Option String} {s s' : Handling} {row : PushRow}
    (h : Push.addPushRequest db client callback password s = (s', .calls [.ok row])) :
    ∃ k, row = Push.pushRow db client callback password k := by
  unfold Push.addPushRequest at h
  split at h
  · simp at h
  · split at h
    · simp at h
    · simp only [Prod.mk.injEq, Reply.calls.injEq, List.cons.injEq, Except.ok.injEq, and_true] at h
      exact ⟨_, h.2.symm⟩

theorem createdFrom_of_ok {db : PushAnswers} {client : Row} {s s' : Handling} {row : PushRow}
    (hc : params.callback = some c) (hinfo : Submits c info)
    (h : Push.createPushRequest L db client params s = (s', .calls [.ok row])) :
    CreatedFrom L info row := by
  have hurl : Push.callbackField (some c) "url" = some (.str info.url) :=
    callbackField_str (some info.url) hinfo.url
  have husername := callbackField_str _ hinfo.username
  rw [Push.createPushRequest, hc, callbackField_str _ hinfo.password] at h
  cases hpassword : info.password with
  | none =>
    rw [hpassword] at h
    obtain ⟨k, rfl⟩ := addPushRequest_ok h
    exact ⟨hurl, husername, by rw [hpassword]; rfl⟩
  | some p =>
    rw [hpassword] at h
    cases hencrypt : L.aesEncrypt (.str p) with
    | error t => simp [hencrypt] at h
    | ok e =>
      simp only [Option.map_some, hencrypt] at h
      obtain ⟨k, rfl⟩ := addPushRequest_ok h
      exact ⟨hurl, husername, by rw [hpassword, Option.map_some, hencrypt]; rfl⟩

/-- Some row is created, if encryption does not throw. -/
theorem exists_created (hL : DecryptionUndoes L aesDecrypt) (hc : params.callback = some c)
    (hinfo : Submits c info) : ∃ db client s s' row,
      Push.createPushRequest L db client params s = (s', .calls [.ok row]) := by
  let db : PushAnswers := ⟨.ok none, .ok none, .ok 0, "", 0⟩
  let client : Row := ⟨"", "", "", ""⟩
  have hadd : ∀ password, ∃ s' row, Push.addPushRequest db client (some c) password
      ⟨⟨∅, .empty, .empty, []⟩, []⟩ = (s', .calls [.ok row]) := fun password => ⟨_, _, rfl⟩
  refine ⟨db, client, ⟨⟨∅, .empty, .empty, []⟩, []⟩, ?_⟩
  rw [Push.createPushRequest, hc, callbackField_str _ hinfo.password]
  cases info.password with
  | none => exact hadd none
  | some p =>
    obtain ⟨e, he, -⟩ := hL p
    simp only [Option.map_some, he]
    exact hadd (some e)

/-! ### What is read back -/

/-- By columns: the url is held, and the credentials are held and decrypted. -/
theorem restores_iff {row : PushRow} : Restores V aesDecrypt info row ↔
    V.column row.callbackUrl = some (some info.url) ∧
      ∃ username password, V.column row.callbackUsername = some username ∧
        V.column (row.callbackPassword.map .str) = some password ∧
        username.map (fun u => (u, password.map aesDecrypt)) = supplied info := by
  constructor
  · rintro ⟨columns, hsave, hoptions⟩
    obtain ⟨url, hurl, hsave⟩ := Option.bind_eq_some_iff.mp hsave
    obtain ⟨username, husername, hsave⟩ := Option.bind_eq_some_iff.mp hsave
    obtain ⟨password, hpassword, hsave⟩ := Option.bind_eq_some_iff.mp hsave
    obtain rfl := Option.some.inj hsave
    have hall := hoptions none
    simp only [PushCallback.create, CallbackColumns.pushRequest, RequestOptions.mk.injEq] at hall
    exact ⟨by rw [hurl, hall.1], username, password, husername, hpassword, hall.2.2.2⟩
  · rintro ⟨hurl, username, password, husername, hpassword, hauth⟩
    refine ⟨⟨some info.url, username, password⟩, ?_, fun error => ?_⟩
    · rw [PushRow.save, hurl, husername, hpassword]; rfl
    · simp only [PushCallback.create, CallbackColumns.pushRequest, hauth]

theorem column_str {text : String} : V.column (some (.str text)) = some (some text) ↔
    text.length ≤ 255 := by
  rw [← V.store_iff, Varchar.column, Option.map_eq_some_iff]
  constructor
  · rintro ⟨held, hheld, heq⟩
    rw [hheld, heq]
  · intro h
    exact ⟨text, h, rfl⟩

/-- Without a username the password is only not to be refused. -/
theorem restores_noUsername {row : PushRow} (hrow : CreatedFrom L info row)
    (hu : info.username = none) :
    Restores V aesDecrypt info row ↔ Storable L V aesDecrypt info := by
  have husername : V.column row.callbackUsername = some none := by rw [hrow.username, hu]; rfl
  have hsupplied : supplied info = none := by simp only [supplied, hu]
  rw [restores_iff, hrow.url, column_str, husername, hsupplied]
  constructor
  · rintro ⟨hurl, username, password, -, hpassword, -⟩
    refine ⟨hurl, fun u h => by rw [hu] at h; simp at h, fun p e hp he => ?_⟩
    rcases hrow.password_cases with ⟨hnone, -⟩ | ⟨p', e', hp', he', hcolumn⟩
    · rw [hnone] at hp; simp at hp
    · obtain rfl := Option.some.inj (hp'.symm.trans hp)
      obtain rfl := Except.ok.inj (he'.symm.trans he)
      rw [hcolumn] at hpassword
      obtain ⟨held, hheld, -⟩ := Option.map_eq_some_iff.mp hpassword
      exact ⟨held, hheld, fun h => absurd hu h⟩
  · rintro ⟨hurl, -, hpassword⟩
    refine ⟨hurl, none, ?_⟩
    rcases hrow.password_cases with ⟨-, hcolumn⟩ | ⟨p, e, hp, he, hcolumn⟩
    · exact ⟨none, rfl, by rw [hcolumn]; rfl, rfl⟩
    · obtain ⟨held, hheld, -⟩ := hpassword p e hp he
      exact ⟨some held, rfl, by rw [hcolumn]; exact congrArg (Option.map some) hheld, rfl⟩

/-- With an empty one the callback authenticates, which nobody asked for. -/
theorem not_restores_emptyUsername {row : PushRow} (hrow : CreatedFrom L info row)
    (hu : info.username = some "") : ¬ Restores V aesDecrypt info row := by
  have hsupplied : supplied info = none := by
    simp only [supplied, hu]
    cases info.password <;> simp
  rw [restores_iff, hrow.username, hu, hsupplied]
  rintro ⟨-, username, password, husername, -, hauth⟩
  obtain ⟨held, -, rfl⟩ := Option.map_eq_some_iff.mp husername
  simp at hauth

/-- With credentials everything has to be held. -/
theorem restores_credentials {row : PushRow} (hrow : CreatedFrom L info row) {u p : String}
    (hu : info.username = some u) (hp : info.password = some p) (hune : u ≠ "") (hpne : p ≠ "") :
    Restores V aesDecrypt info row ↔ Storable L V aesDecrypt info := by
  have hsupplied : supplied info = some (u, some p) := by
    simp only [supplied, hu, hp, if_pos (And.intro hune hpne)]
  obtain ⟨p', e, hp', he, hcolumn⟩ : ∃ p' e, info.password = some p' ∧ L.aesEncrypt (.str p') = .ok e ∧
      row.callbackPassword = some e := by
    rcases hrow.password_cases with ⟨hnone, -⟩ | h
    · rw [hnone] at hp; simp at hp
    · exact h
  obtain rfl := Option.some.inj (hp'.symm.trans hp)
  rw [restores_iff, hrow.url, column_str, hrow.username, hu, hcolumn, hsupplied]
  constructor
  · rintro ⟨hurl, username, password, husername, hpassword, hauth⟩
    obtain ⟨heldUser, hheldUser, rfl⟩ := Option.map_eq_some_iff.mp husername
    obtain ⟨held, hheld, rfl⟩ := Option.map_eq_some_iff.mp hpassword
    simp only [Option.map_some, Option.some.injEq, Prod.mk.injEq] at hauth
    obtain ⟨rfl, hdecrypt⟩ := hauth
    refine ⟨hurl, fun u h => ?_, fun p e' hp he' => ⟨held, ?_, fun _ => ?_⟩⟩
    · obtain rfl := Option.some.inj (hu.symm.trans h)
      exact ⟨hune, (V.store_iff _).mp hheldUser⟩
    · obtain rfl := Option.some.inj (hp'.symm.trans hp)
      obtain rfl := Except.ok.inj (he.symm.trans he')
      exact hheld
    · obtain rfl := Option.some.inj (hp'.symm.trans hp)
      exact hdecrypt
  · rintro ⟨hurl, husername, hpassword⟩
    obtain ⟨held, hheld, hdecrypt⟩ := hpassword p' e hp' he
    refine ⟨hurl, some u, some held, column_str.mpr (husername u hu).2,
      congrArg (Option.map some) hheld, ?_⟩
    rw [Option.map_some, Option.map_some, hdecrypt (by rw [hu]; simp)]

end

/-- Of accepted credentials, a username that is not empty comes with such a password. -/
theorem password_of_accepted {N : NumberText} {protocol : Option String} {info : CallbackInfo}
    (h : CredentialsAccepted N protocol (info.username.map .str) (info.password.map .str)) {u : String}
    (hu : info.username = some u) (hune : u ≠ "") : ∃ p, info.password = some p ∧ p ≠ "" := by
  rw [hu, Option.map_some] at h
  rcases h with ⟨hno, -⟩ | ⟨_, p, ⟨⟩, hp, -, htp, -, -, -⟩
  · rw [truthy_str.mpr hune] at hno; simp at hno
  · obtain ⟨p', hp', rfl⟩ := Option.map_eq_some_iff.mp hp
    exact ⟨p', hp', truthy_str.mp htp⟩

section

variable {L : Library} {V : Varchar} {aesDecrypt : String → String} {info : CallbackInfo}

/-- What fits is held, and decrypted to what was encrypted. -/
theorem Fits.storable (hL : DecryptionUndoes L aesDecrypt) (h : Fits L info) :
    Storable L V aesDecrypt info := by
  refine ⟨h.url, h.username, fun p e hp he => ⟨e, V.fits e (h.password p e hp he), fun _ => ?_⟩⟩
  obtain ⟨e', he', hdecrypt⟩ := hL p
  obtain rfl := Except.ok.inj (he.symm.trans he')
  exact hdecrypt

/-- A long text is not held as it is, and nothing else is decrypted to the password. -/
theorem Storable.fits (honly : DecryptsOnly L aesDecrypt) (h : Storable L V aesDecrypt info)
    (hu : info.username ≠ none ∨ info.password = none) : Fits L info := by
  refine ⟨h.url, h.username, fun p e hp he => ?_⟩
  obtain ⟨held, hheld, hdecrypt⟩ := h.password p e hp he
  have huser : info.username ≠ none := hu.resolve_right (by rw [hp]; simp)
  obtain rfl := honly p e held he (hdecrypt huser)
  exact (V.store_iff held).mp hheld

end

/-- For every accepted body whose callback has strings only, every column and every encryption. -/
theorem survives_iff_storable (L : Library) (V : Varchar) (aesDecrypt : String → String)
    (hL : DecryptionUndoes L aesDecrypt) (body : Json) (params : Api.Push.Params) (c : Json)
    (info : CallbackInfo)
    (hacc : Api.Push.parsePushMessage L.numbers L.urlParse body = .ok (.ok params))
    (hc : params.callback = some c) (hinfo : Submits c info) :
    Survives L V aesDecrypt params info ↔ Storable L V aesDecrypt info := by
  obtain ⟨url, protocol, haccepted⟩ :=
    ((parsePushMessage_iff (ne_null_of_accepted hacc)).mp hacc).checked c hc
  have hcredentials := haccepted.credentials
  rw [hinfo.username, hinfo.password] at hcredentials
  have hrow : ∀ row, CreatedFrom L info row →
      (Restores V aesDecrypt info row ↔ Storable L V aesDecrypt info) := by
    intro row hrow
    cases hu : info.username with
    | none => exact restores_noUsername hrow hu
    | some u =>
      by_cases hune : u = ""
      · subst hune
        exact iff_of_false (not_restores_emptyUsername hrow hu)
          fun h => (h.username "" hu).1 rfl
      · obtain ⟨p, hp, hpne⟩ := password_of_accepted hcredentials hu hune
        exact restores_credentials hrow hu hp hune hpne
  constructor
  · intro h
    obtain ⟨db, client, s, s', row, hcreate⟩ := exists_created hL hc hinfo
    exact (hrow row (createdFrom_of_ok hc hinfo hcreate)).mp (h db client s s' row hcreate)
  · intro h db client s s' row hcreate
    exact (hrow row (createdFrom_of_ok hc hinfo hcreate)).mpr h

/-- For every accepted body whose callback has strings only, every column and every encryption: the
    callback data survives if it fits. Where nothing else is decrypted to the password, it survives
    only then, but for a password without a username, which is stored and never used. -/
theorem survives_of_fits (L : Library) (V : Varchar) (aesDecrypt : String → String)
    (hL : DecryptionUndoes L aesDecrypt) (body : Json) (params : Api.Push.Params) (c : Json)
    (info : CallbackInfo)
    (hacc : Api.Push.parsePushMessage L.numbers L.urlParse body = .ok (.ok params))
    (hc : params.callback = some c) (hinfo : Submits c info) :
    (Fits L info → Survives L V aesDecrypt params info) ∧
      (DecryptsOnly L aesDecrypt → (info.username ≠ none ∨ info.password = none) →
        Survives L V aesDecrypt params info → Fits L info) := by
  have hiff := survives_iff_storable L V aesDecrypt hL body params c info hacc hc hinfo
  exact ⟨fun h => hiff.mpr (h.storable hL), fun honly hu h => (hiff.mp h).fits honly hu⟩

namespace Varchar

/-- On a server whose `sql_mode` is not strict a text is cut off. -/
def cutOff : Json → Option String
  | .str s => some (String.ofList (s.toList.take 255))
  | _ => some ""

theorem cutOff_short (s : String) (h : s.length ≤ 255) : cutOff (.str s) = some s := by
  rw [cutOff, List.take_of_length_le (by rwa [String.length_toList]), String.ofList_toList]

theorem cutOff_long (s : String) (h : 255 < s.length) : cutOff (.str s) ≠ some s := by
  intro heq
  have hlen := congrArg String.length (Option.some.inj heq)
  rw [String.length_ofList, List.length_take, String.length_toList] at hlen
  omega

def truncating : Varchar := ⟨cutOff, cutOff_short, cutOff_long⟩

end Varchar

/-- A library whose encryption is base64. -/
def base64Library : Library :=
  { nodeLibrary with
    urlParse := fun _ => .ok (some "https:")
    aesEncrypt := fun
      | .str s => .ok (BasicAuth.toBase64 s)
      | _ => .error .library }

theorem decryptionUndoes_base64 : DecryptionUndoes base64Library nodeLibrary.base64Decode :=
  fun p => ⟨_, rfl, roundTrips_node p⟩

theorem survives_stringPush : DecryptionUndoes base64Library nodeLibrary.base64Decode ∧
    ∃ params c, Api.Push.parsePushMessage base64Library.numbers base64Library.urlParse stringPush
        = .ok (.ok params) ∧ params.callback = some c ∧
      Submits c ⟨"https://app/done", some "app", some "secret"⟩ ∧
      Survives base64Library .truncating nodeLibrary.base64Decode params
        ⟨"https://app/done", some "app", some "secret"⟩ := by
  refine ⟨decryptionUndoes_base64, _, _, rfl, rfl, ⟨rfl, rfl, rfl⟩,
    (survives_of_fits base64Library .truncating nodeLibrary.base64Decode decryptionUndoes_base64
      stringPush _ _ _ rfl rfl ⟨rfl, rfl, rfl⟩).1 ⟨by decide, ?_, ?_⟩⟩
  · rintro u ⟨⟩; decide
  · rintro p e ⟨⟩ ⟨⟩; decide

/-- A url of 258 characters. -/
def longUrl : String := "https://" ++ String.ofList (List.replicate 250 'a')

theorem length_longUrl : longUrl.length = 258 := by
  rw [longUrl, String.length_append, String.length_ofList (l := List.replicate 250 'a'),
    List.length_replicate]
  rfl

/-- A push with a callback that has no credentials, or empty ones, is accepted. -/
theorem accepted_withoutCredentials {L : Library} {c : Json} {url : String}
    (htruthy : Json.truthy (some c) = true) (hfield : field c "url" = some (.str url)) (hne : url ≠ "")
    (hparse : L.urlParse url = .ok (some "https:")) (hu : Json.truthy (field c "username") = false)
    (hp : Json.truthy (field c "password") = false) :
    Api.Push.parsePushMessage L.numbers L.urlParse (.obj [("message", .str "hello"), ("callback", c)])
      = .ok (.ok ⟨.str "hello", some c⟩) := by
  refine (parsePushMessage_iff (by simp)).mpr ⟨rfl, rfl, rfl, filter_truthy.mpr ⟨rfl, htruthy⟩, ?_⟩
  rintro _ ⟨⟩
  exact ⟨url, some "https:", hfield, hne, hparse, by simp, .without hu hp⟩

theorem not_survives_of_created {L : Library} {V : Varchar} {aesDecrypt : String → String} {c : Json}
    {info : CallbackInfo} (hL : DecryptionUndoes L aesDecrypt) (hinfo : Submits c info)
    (h : ∀ row, CreatedFrom L info row → ¬ Restores V aesDecrypt info row) (message : Json) :
    ¬ Survives L V aesDecrypt ⟨message, some c⟩ info := by
  intro hsurvives
  have hc : (⟨message, some c⟩ : Api.Push.Params).callback = some c := rfl
  obtain ⟨db, client, s, s', row, hcreate⟩ := exists_created hL hc hinfo
  exact h row (createdFrom_of_ok hc hinfo hcreate) (hsurvives db client s s' row hcreate)

/-- A long url is accepted and not restored, and an empty username makes the callback authenticate. -/
theorem not_survives_longUrl : longUrl.length = 258 ∧
    DecryptionUndoes base64Library nodeLibrary.base64Decode ∧
    ∀ (L : Library) (V : Varchar) (aesDecrypt : String → String), DecryptionUndoes L aesDecrypt →
    L.urlParse longUrl = .ok (some "https:") → L.urlParse "https://app/done" = .ok (some "https:") →
    (∃ params c, Api.Push.parsePushMessage L.numbers L.urlParse
          (.obj [("message", .str "hello"), ("callback", .obj [("url", .str longUrl)])])
        = .ok (.ok params) ∧ params.callback = some c ∧ Submits c ⟨longUrl, none, none⟩ ∧
        ¬ Survives L V aesDecrypt params ⟨longUrl, none, none⟩) ∧
    ∃ params c, Api.Push.parsePushMessage L.numbers L.urlParse
          (.obj [("message", .str "hello"), ("callback", .obj [("url", .str "https://app/done"),
            ("username", .str ""), ("password", .str "")])])
        = .ok (.ok params) ∧ params.callback = some c ∧
        Submits c ⟨"https://app/done", some "", some ""⟩ ∧
        ¬ Survives L V aesDecrypt params ⟨"https://app/done", some "", some ""⟩ := by
  refine ⟨length_longUrl, decryptionUndoes_base64, ?_⟩
  rintro L V aesDecrypt hL hlong hdone
  have hne : longUrl ≠ "" := fun h => by
    have hlen := length_longUrl
    rw [h] at hlen; simp at hlen
  constructor
  · have hinfo : Submits (.obj [("url", .str longUrl)]) ⟨longUrl, none, none⟩ := ⟨rfl, rfl, rfl⟩
    refine ⟨_, _, accepted_withoutCredentials rfl rfl hne hlong rfl rfl, rfl, hinfo,
      not_survives_of_created hL hinfo (fun row hrow hrestores => ?_) _⟩
    have hurl := ((restores_noUsername hrow rfl).mp hrestores).url
    rw [length_longUrl] at hurl
    omega
  · have hinfo : Submits (.obj [("url", .str "https://app/done"), ("username", .str ""),
        ("password", .str "")]) ⟨"https://app/done", some "", some ""⟩ := ⟨rfl, rfl, rfl⟩
    exact ⟨_, _, accepted_withoutCredentials rfl rfl (by decide) hdone rfl rfl, rfl, hinfo,
      not_survives_of_created hL hinfo (fun row hrow => not_restores_emptyUsername hrow rfl) _⟩

end Elephant.App
