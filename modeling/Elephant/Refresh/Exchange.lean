import Elephant.Refresh.Counter

/-! Exchanging one push id more than once.

    The check of the presented push id and the increment that makes it invalid are separate calls.
    Two refreshes with one push id that are both checked before either has incremented both succeed;
    the main result says that this is the only way. -/

namespace Elephant.Refresh
open Elephant.Schemes Elephant.Model
open Elephant.Push (HttpError)

/-- The push id was accepted. -/
def Phase.accepted : Phase → Bool
  | .start => false
  | .done (.error _) => false
  | _ => true

/-- Between the check and the end of the increment. -/
def Phase.pending : Phase → Bool
  | .validated => true
  | .found => true
  | _ => false

/-- The calls that are left. -/
def Phase.left : Phase → ℕ
  | .start => 4
  | .validated => 3
  | .found => 2
  | .incremented => 1
  | .done _ => 0

/-- Of the refreshes of one client with one push id, one that succeeds leaves all others that are
    answered with 401. -/
def AtMostOnce (s : Blacklist) : Prop :=
  ∀ (i j : ℕ) (r x : Request) (q : PushId) (answer : Except HttpError PushId),
    s.requests[i]? = some r → s.requests[j]? = some x → i ≠ j →
    r.clientId = x.clientId → r.pushId = x.pushId → r.phase = .done (.ok q) →
    x.phase = .done answer → answer = .error invalidPushId

/-- Only refreshes that have been checked go on. -/
def Settling (s : Blacklist) (es : List RefreshEvent) : Prop :=
  ∀ e ∈ es, ∃ (i : ℕ) (r : Request), e = .exec i ∧ s.requests[i]? = some r ∧ r.phase ≠ .start

section

variable (shaDigest : String → String) (salt : String)

/-- However the refreshes that have been checked are brought to their end, a push id is exchanged
    at most once. -/
def ExchangedOnce (s : Blacklist) : Prop :=
  ∀ es s', Settling s es → run (refreshStep shaDigest salt) s es = some s' → AtMostOnce s'

/-- No refresh is accepted while another one of the client with the same push id is pending. -/
def Exclusive (s : Blacklist) : RefreshEvent → Prop
  | .exec i => ∀ r ∈ s.requests[i]?, r.phase = .start →
      r.pushId = generatePushId shaDigest salt r.clientId (getRefreshCount s.refreshCount r.clientId) →
      ∀ x ∈ s.requests, x.clientId = r.clientId → x.pushId = r.pushId → x.phase.pending = false
  | _ => True

/-- At most one refresh of a client with one push id is accepted. -/
structure OnceInv (s : Blacklist) : Prop where
  inv : RefreshInv shaDigest salt s
  once : ∀ (i j : ℕ) (r x : Request), s.requests[i]? = some r → s.requests[j]? = some x →
    r.clientId = x.clientId → r.pushId = x.pushId → r.phase.accepted = true →
    x.phase.accepted = true → i = j

end

section

variable {shaDigest : String → String} {salt : String} {s s' : Blacklist} {i : ℕ} {r : Request}
  {t : RefreshTable} {ph : Phase}

/-- Past its increment, a refresh has presented an earlier push id. -/
theorem RefreshInv.lt_of_counted (hI : RefreshInv shaDigest salt s) (hr : r ∈ s.requests)
    (hacc : r.phase.accepted = true) (hpend : r.phase.pending = false) :
    ∃ k < completed s r.clientId, r.pushId = generatePushId shaDigest salt r.clientId k := by
  have hseen := hI.seen r hr
  obtain ⟨c, p, ph⟩ := r
  cases ph with
  | start => simp [Phase.accepted] at hacc
  | validated => simp [Phase.pending] at hpend
  | found => simp [Phase.pending] at hpend
  | incremented => exact hseen
  | done answer =>
    cases answer with
    | error e => simp [Phase.accepted] at hacc
    | ok q =>
      obtain ⟨k, k', -, hk, hp, -⟩ := hseen
      exact ⟨k, hk, hp⟩

/-- A call accepts the push id in the check only. -/
theorem Ran.accepts {c : ClientId} {p : PushId} {ph₀ : Phase} {t₀ : RefreshTable}
    (h : Ran shaDigest salt t₀ c p ph₀ t ph) (hacc : ph.accepted = true) :
    ph₀.accepted = true ∨
      ph₀ = .start ∧ p = generatePushId shaDigest salt c (getRefreshCount t₀ c) := by
  cases h with
  | rejected h => simp [Phase.accepted] at hacc
  | accepted h => exact Or.inr ⟨rfl, h⟩
  | _ => exact Or.inl rfl

theorem Ran.ne_start {c : ClientId} {p : PushId} {ph₀ : Phase} {t₀ : RefreshTable}
    (h : Ran shaDigest salt t₀ c p ph₀ t ph) : ph ≠ .start := by
  cases h <;> simp

/-- The requests after a call. -/
theorem getElem?_moved {j : ℕ} {x : Request} (hr : s.requests[i]? = some r)
    (hx : (s.moved i r t ph).requests[j]? = some x) :
    (j = i ∧ x = { r with phase := ph }) ∨ (j ≠ i ∧ s.requests[j]? = some x) := by
  simp only [Blacklist.moved, List.getElem?_set] at hx
  have hi := (List.getElem?_eq_some_iff.mp hr).1
  split_ifs at hx with hij
  · exact Or.inl ⟨hij.symm, (Option.some.inj hx).symm⟩
  · exact Or.inr ⟨Ne.symm hij, hx⟩

namespace OnceInv

/-- The check of an exclusive refresh finds no accepted one with its push id. -/
theorem not_accepted (hO : OnceInv shaDigest salt s) (hinj : Function.Injective shaDigest)
    (hr : s.requests[i]? = some r) (hstart : r.phase = .start)
    (hp : r.pushId = generatePushId shaDigest salt r.clientId
      (getRefreshCount s.refreshCount r.clientId))
    (hC : Exclusive shaDigest salt s (.exec i)) {x : Request} (hx : x ∈ s.requests)
    (hc : x.clientId = r.clientId) (hid : x.pushId = r.pushId) : x.phase.accepted = false := by
  cases hacc : x.phase.accepted with
  | false => rfl
  | true =>
    have hpend := hC r hr hstart hp x hx hc hid
    obtain ⟨k, hk, hxp⟩ := hO.inv.lt_of_counted hx hacc hpend
    rw [hid, hp, hc, hO.inv.count] at hxp
    have := generatePushId_inj hinj hxp
    rw [hc] at hk
    omega

theorem exec (hO : OnceInv shaDigest salt s) (hinj : Function.Injective shaDigest)
    (hC : Exclusive shaDigest salt s (.exec i))
    (hstep : refreshStep shaDigest salt s (.exec i) = some s') : OnceInv shaDigest salt s' := by
  refine ⟨hO.inv.step hstep, ?_⟩
  obtain ⟨r, t, ph, hr, hran, rfl⟩ := refreshStep_exec hstep
  -- a request that is accepted besides the one that ran
  have key : ∀ {j : ℕ} {x : Request}, j ≠ i → s.requests[j]? = some x → x.clientId = r.clientId →
      x.pushId = r.pushId → x.phase.accepted = true → ph.accepted = true → False := by
    intro j x hj hx hc hid hacc hph
    rcases hran.accepts hph with hold | ⟨hstart, hp⟩
    · exact hj (hO.once j i x r hx hr hc hid hacc hold)
    · have := hO.not_accepted hinj hr hstart hp hC (List.mem_of_getElem? hx) hc hid
      rw [hacc] at this; simp at this
  intro a b x y hx hy hc hid hax hay
  rcases getElem?_moved hr hx with ⟨rfl, rfl⟩ | ⟨ha, hx'⟩ <;>
    rcases getElem?_moved hr hy with ⟨rfl, rfl⟩ | ⟨hb, hy'⟩
  · rfl
  · exact (key hb hy' hc.symm hid.symm hay hax).elim
  · exact (key ha hx' hc hid hax hay).elim
  · exact hO.once a b x y hx' hy' hc hid hax hay

theorem step {e : RefreshEvent} (hO : OnceInv shaDigest salt s)
    (hinj : Function.Injective shaDigest) (hC : Exclusive shaDigest salt s e)
    (hstep : refreshStep shaDigest salt s e = some s') : OnceInv shaDigest salt s' := by
  cases e with
  | register c =>
    refine ⟨hO.inv.step hstep, ?_⟩
    simp only [refreshStep] at hstep
    split at hstep <;> cases hstep
    exact hO.once
  | refresh c p =>
    refine ⟨hO.inv.step hstep, ?_⟩
    cases hstep
    have hold : ∀ {j : ℕ} {x : Request},
        (s.requests ++ [⟨c, p, .start⟩])[j]? = some x → x.phase.accepted = true →
        s.requests[j]? = some x := by
      intro j x hx hacc
      rw [List.getElem?_append] at hx
      split_ifs at hx with hj
      · exact hx
      · obtain rfl := List.mem_singleton.mp (List.mem_of_getElem? hx)
        simp [Phase.accepted] at hacc
    intro a b x y hx hy hc hid hax hay
    exact hO.once a b x y (hold hx hax) (hold hy hay) hc hid hax hay
  | exec i => exact hO.exec hinj hC hstep

theorem create : OnceInv shaDigest salt .create :=
  ⟨RefreshInv.create, by simp [Blacklist.create]⟩

theorem atMostOnce (hO : OnceInv shaDigest salt s) : AtMostOnce s := by
  intro i j r x q answer hr hx hij hc hid hok hdone
  have hseen := hO.inv.seen x (List.mem_of_getElem? hx)
  cases answer with
  | ok q' =>
    refine absurd (hO.once i j r x hr hx hc hid ?_ ?_) hij
    · rw [hok]; rfl
    · rw [hdone]; rfl
  | error e => simp only [Seen, hdone] at hseen; rw [hseen]

end OnceInv

/-! ### Checked refreshes can be brought to their end -/

theorem Settling.tail {e : RefreshEvent} {es : List RefreshEvent} (h : Settling s (e :: es))
    (hstep : refreshStep shaDigest salt s e = some s') : Settling s' es := by
  obtain ⟨i, r, rfl, -, -⟩ := h e List.mem_cons_self
  obtain ⟨r, t, ph, hr, hran, rfl⟩ := refreshStep_exec hstep
  intro e' he'
  obtain ⟨j, x, rfl, hx, hph⟩ := h e' (List.mem_cons_of_mem _ he')
  have hi := (List.getElem?_eq_some_iff.mp hr).1
  by_cases hij : i = j
  · subst hij
    exact ⟨i, { r with phase := ph }, rfl, by simp [Blacklist.moved, hi], hran.ne_start⟩
  · exact ⟨j, x, rfl, by simpa [Blacklist.moved, hij] using hx, hph⟩

/-- Checked refreshes that go on are exclusive. -/
theorem Settling.allSteps : ∀ {es : List RefreshEvent} {s : Blacklist}, Settling s es →
    AllSteps (refreshStep shaDigest salt) (Exclusive shaDigest salt) s es
  | [], _, _ => trivial
  | e :: es, s, h => by
      refine ⟨?_, fun s' hs => (h.tail hs).allSteps⟩
      obtain ⟨i, r, rfl, hr, hph⟩ := h e List.mem_cons_self
      intro x hx hstart
      rw [hr, Option.mem_def, Option.some.injEq] at hx; subst hx
      exact absurd hstart hph

theorem OnceInv.exchangedOnce (hO : OnceInv shaDigest salt s)
    (hinj : Function.Injective shaDigest) : ExchangedOnce shaDigest salt s :=
  fun _ _ hset hrun =>
    (inv_run (fun _ _ _ hO hC hs => hO.step hinj hC hs) hO hset.allSteps hrun).atMostOnce

theorem findOrCreate_isSome (t : RefreshTable) (c : ClientId) : ∃ u, findOrCreate t c = some u := by
  unfold findOrCreate
  cases hf : t.find c with
  | some row => exact ⟨_, rfl⟩
  | none =>
    have hne := Table.find_eq_none.mp hf
    obtain ⟨t', ht'⟩ := Table.insert_isSome (r := (⟨c, defaultCount⟩ : RefreshCount)) hne hne
    exact ⟨_, by rw [ht']; rfl⟩

theorem increment_isSome (t : RefreshTable) (c : ClientId) : ∃ u, increment t c = some u := by
  unfold increment
  cases hf : t.find c with
  | some row => exact Table.update_isSome fun _ _ h => h
  | none => exact ⟨t, rfl⟩

/-- An accepted refresh that is not answered has a next call, which brings it closer. -/
theorem runCall_isSome (shaDigest : String → String) (salt : String) (t : RefreshTable)
    (c : ClientId) (p : PushId) {ph : Phase} (hacc : ph.accepted = true) (hleft : ph.left ≠ 0) :
    ∃ t' ph',
      runCall shaDigest salt t c p ph = some (t', ph') ∧ ph'.accepted = true ∧ ph'.left < ph.left := by
  cases ph with
  | start => simp [Phase.accepted] at hacc
  | validated =>
    obtain ⟨⟨t', created⟩, hu⟩ := findOrCreate_isSome t c
    refine ⟨t', if created then .incremented else .found, by simp [runCall, hu], ?_⟩
    cases created <;> decide
  | found =>
    obtain ⟨t', hu⟩ := increment_isSome t c
    exact ⟨t', .incremented, by simp [runCall, hu], by decide⟩
  | incremented => exact ⟨_, _, rfl, rfl, by simp [Phase.left]⟩
  | done answer => simp [Phase.left] at hleft

/-- The calls that are left to an accepted refresh lead it to its success. -/
theorem finishes (shaDigest : String → String) (salt : String) :
    ∀ (n : ℕ) {s : Blacklist} {r : Request}, s.requests[i]? = some r →
    r.phase.accepted = true → r.phase.left ≤ n →
    ∃ m s' q, run (refreshStep shaDigest salt) s (List.replicate m (.exec i)) = some s' ∧
      s'.requests[i]? = some { r with phase := .done (.ok q) } ∧
      ∀ j, j ≠ i → s'.requests[j]? = s.requests[j]?
  | n, s, r, hr, hacc, hle => by
      by_cases hleft : r.phase.left = 0
      · obtain ⟨c, p, ph⟩ := r
        cases ph with
        | done answer =>
          cases answer with
          | ok q => exact ⟨0, s, q, rfl, hr, fun _ _ => rfl⟩
          | error e => simp [Phase.accepted] at hacc
        | _ => simp [Phase.left] at hleft
      · obtain ⟨t, ph, hcall, hacc', hlt⟩ := runCall_isSome shaDigest salt
          s.refreshCount r.clientId r.pushId hacc hleft
        have hstep : refreshStep shaDigest salt s (.exec i) = some (s.moved i r t ph) := by
          simp [refreshStep, hr, hcall, Blacklist.moved]
        have hi := (List.getElem?_eq_some_iff.mp hr).1
        have hmoved : (s.moved i r t ph).requests[i]? = some { r with phase := ph } := by
          simp [Blacklist.moved, hi]
        cases n with
        | zero => omega
        | succ n =>
          obtain ⟨m, s', q, hrun, hdone, hother⟩ :=
            finishes shaDigest salt n hmoved hacc' (Nat.le_of_lt_succ (hlt.trans_le hle))
          refine ⟨m + 1, s', q, ?_, hdone, fun j hj => (hother j hj).trans ?_⟩
          · rw [List.replicate_succ]; exact run_cons_some.mpr ⟨_, hstep, hrun⟩
          · simp [Blacklist.moved, Ne.symm hj]

/-- Two accepted refreshes with one push id both succeed in the end. -/
theorem not_exchangedOnce {j : ℕ} {x : Request} (hr : s.requests[i]? = some r)
    (hx : s.requests[j]? = some x) (hij : i ≠ j) (hc : r.clientId = x.clientId)
    (hid : r.pushId = x.pushId) (hacc : r.phase.accepted = true)
    (hacc' : x.phase.accepted = true) : ¬ ExchangedOnce shaDigest salt s := by
  intro hE
  obtain ⟨m, s₁, q, hrun, hdone, hother⟩ :=
    finishes shaDigest salt _ hr hacc le_rfl
  obtain ⟨m', s₂, q', hrun', hdone', hother'⟩ :=
    finishes shaDigest salt _ ((hother j (Ne.symm hij)).trans hx) hacc' le_rfl
  have hset : Settling s (List.replicate m (.exec i) ++ List.replicate m' (.exec j)) := by
    intro e he
    rcases List.mem_append.mp he with he | he
    · refine ⟨i, r, (List.mem_replicate.mp he).2, hr, fun h => ?_⟩
      rw [h] at hacc; simp [Phase.accepted] at hacc
    · refine ⟨j, x, (List.mem_replicate.mp he).2, hx, fun h => ?_⟩
      rw [h] at hacc'; simp [Phase.accepted] at hacc'
  have hend := hE _ s₂ hset (run_append_some.mpr ⟨s₁, hrun, hrun'⟩)
  have hi : s₂.requests[i]? = some { r with phase := .done (.ok q) } := (hother' i hij).trans hdone
  have := hend i j _ _ q _ hi hdone' hij hc hid rfl rfl
  simp at this

theorem not_exchangedOnce_of_not_exclusive {e : RefreshEvent}
    (hC : ¬ Exclusive shaDigest salt s e) (hstep : refreshStep shaDigest salt s e = some s') :
    ¬ ExchangedOnce shaDigest salt s' := by
  cases e with
  | exec i =>
    simp only [Exclusive, not_forall] at hC
    obtain ⟨r, hr, hstart, hp, x, hx, hc, hid, hpend⟩ := hC
    have hr : s.requests[i]? = some r := hr
    obtain ⟨j, hj⟩ := List.mem_iff_getElem?.mp hx
    have hij : i ≠ j := by
      rintro rfl
      rw [hr, Option.some.injEq] at hj; subst hj
      rw [hstart] at hpend; simp [Phase.pending] at hpend
    obtain ⟨r', t, ph, hr', hran, rfl⟩ := refreshStep_exec hstep
    rw [hr, Option.some.injEq] at hr'; subst hr'
    have hi := (List.getElem?_eq_some_iff.mp hr).1
    have hph : ph.accepted = true := by
      rw [hstart] at hran
      cases hran with
      | rejected h => exact absurd hp h
      | accepted h => rfl
    refine not_exchangedOnce (i := i) (j := j) (r := { r with phase := ph }) (x := x) ?_ ?_ hij
      hc.symm hid.symm hph ?_
    · simp [Blacklist.moved, hi]
    · simpa [Blacklist.moved, hij] using hj
    · cases hxp : x.phase <;> simp_all [Phase.pending, Phase.accepted]
  | _ => exact absurd trivial hC

end

/-- For every run, a push id is exchanged at most once throughout iff no refresh is accepted while
    another one with its push id is pending. -/
theorem exchangedOnce_iff_exclusive (shaDigest : String → String)
    (hinj : Function.Injective shaDigest) (salt : String) (es : List RefreshEvent) (s : Blacklist)
    (hrun : run (refreshStep shaDigest salt) .create es = some s) :
    AllStates (refreshStep shaDigest salt) (ExchangedOnce shaDigest salt) .create es ↔
      AllSteps (refreshStep shaDigest salt) (Exclusive shaDigest salt) .create es :=
  allStates_iff_allSteps (I := OnceInv shaDigest salt) (fun _ _ _ hO hC hs => hO.step hinj hC hs)
    (fun _ hO => hO.exchangedOnce hinj)
    (fun _ _ _ _ hC hs => not_exchangedOnce_of_not_exclusive hC hs) OnceInv.create ⟨s, hrun⟩

instance (shaDigest : String → String) (salt : String) (s : Blacklist) (e : RefreshEvent) :
    Decidable (Exclusive shaDigest salt s e) :=
  match e with
  | .exec i => inferInstanceAs (Decidable (∀ r ∈ s.requests[i]?, r.phase = .start →
      r.pushId = generatePushId shaDigest salt r.clientId (getRefreshCount s.refreshCount r.clientId) →
      ∀ x ∈ s.requests, x.clientId = r.clientId → x.pushId = r.pushId → x.phase.pending = false))
  | .register _ => isTrue trivial
  | .refresh _ _ => isTrue trivial

/-- A refresh that is sent again, and checked after the first one has incremented. -/
def retryAfterIncrement : List RefreshEvent :=
  [.register "clid-0", .refresh "clid-0" "clid-0salt0", .refresh "clid-0" "clid-0salt0",
    .exec 0, .exec 0, .exec 1, .exec 0]

theorem exchangedOnce_retryAfterIncrement :
    AllStates (refreshStep id "salt") (ExchangedOnce id "salt") .create retryAfterIncrement :=
  (exchangedOnce_iff_exclusive id Function.injective_id "salt" retryAfterIncrement _ rfl).mpr
    (by decide)

/-- Both are checked before either has incremented. -/
def retryBeforeIncrement : List RefreshEvent :=
  [.register "clid-0", .refresh "clid-0" "clid-0salt0", .refresh "clid-0" "clid-0salt0",
    .exec 0, .exec 1, .exec 0, .exec 1, .exec 1, .exec 0, .exec 1]

/-- One push id is exchanged twice. -/
theorem not_atMostOnce_retryBeforeIncrement : ∃ s,
    run (refreshStep id "salt") .create retryBeforeIncrement = some s ∧
      s.requests = [⟨"clid-0", "clid-0salt0", .done (.ok "clid-0salt2")⟩,
        ⟨"clid-0", "clid-0salt0", .done (.ok "clid-0salt2")⟩] ∧ ¬ AtMostOnce s := by
  refine ⟨_, rfl, by decide, fun h => ?_⟩
  have := h 0 1 _ _ _ _ rfl rfl (by decide) rfl rfl rfl rfl
  simp at this

end Elephant.Refresh
