import Mathlib.Algebra.BigOperators.Ring.Finset
import Elephant.Listen.Connected

/-! The worker pool of a server (`pool/poollayer.coffee`), with the gauges that its workers report
    (`api/spdyserver.coffee`, `reportConnectedClients`).

    The master forks one worker for each name of `[1..numWorkers]`. A worker that exits is replaced by
    one of the same name and a new id. The gauge of connected clients goes by the name:

        fork name ─▶ id ─▶ start: gauge name := 0 ─▶ stages of listens, closes: gauge name := sessions
          ▲                                                              │
          ╰────────────────────────── name ◀──────────── exit id ◀──────╯

    A listen makes its session in one stage and reports it in the next one, so the gauge of a worker
    lags behind its sessions by the listens that stand between the two. Between the exit and the start
    of the next worker a gauge tells what the dead worker had. -/

namespace Elephant.Pool
open Elephant.Schemes Elephant.Model Elephant.Listen

/-- A worker as the master has it: the id is given by `cluster.fork`, the name by the pool. -/
structure Worker where
  id : WorkerId
  name : ℕ
  deriving DecidableEq, Repr

/-- `forked` is the last id that was given, `workers` are those of `cluster.workers`, `servers` the
    server, with its listens, of each worker that has got as far as to make one. -/
structure PoolLayer where
  serverId : ServerId
  forked : ℕ
  workers : List Worker
  servers : WorkerId → Option Pipeline
  exited : List WorkerId
  gauges : PlainObject ℤ

/-- `options.workers or os.cpus().length`. -/
def numWorkers (workers : Option ℕ) (cpus : ℕ) : ℕ :=
  match workers with
  | some (n + 1) => n + 1
  | _ => cpus

/-- The names of `[1..numWorkers]`, which counts down when the end is below the start. -/
def workerNames : ℕ → List ℕ
  | 0 => [1, 0]
  | n + 1 => List.range' 1 (n + 1)

def gaugeName (workerName : ℕ) : String := "worker_" ++ (toString workerName ++ ".clients.connected")

namespace PoolLayer

def fork (s : PoolLayer) (workerName : ℕ) : PoolLayer :=
  { s with forked := s.forked + 1, workers := s.workers ++ [⟨s.forked + 1, workerName⟩] }

/-- The master's side of `startServer`. -/
def startServer (serverId : ServerId) (workers : Option ℕ) (cpus : ℕ) : PoolLayer :=
  (workerNames (numWorkers workers cpus)).foldl fork ⟨serverId, 0, [], fun _ => none, [], ∅⟩

def find (s : PoolLayer) (workerId : WorkerId) : Option Worker := s.workers.find? fun x => x.id = workerId

/-- What the worker is told, or the error of the message. -/
def sendMsgToWorker (s : PoolLayer) (workerId : WorkerId) : Except String Worker :=
  match s.find workerId with
  | some x => .ok x
  | none => .error "worker does not exist"

/-- The gauge of the worker is set to the number that its server tells. -/
def reportConnectedClients (s : PoolLayer) (x : Worker) (p : Pipeline) : PoolLayer :=
  { s with gauges := s.gauges.insert (gaugeName x.name) p.server.reportConnectedClients }

def setServer (s : PoolLayer) (x : Worker) (p : Pipeline) : PoolLayer :=
  { s with servers := Function.update s.servers x.id (some p) }

/-- The `exit` handler of the master. -/
def onExit (s : PoolLayer) (x : Worker) : PoolLayer :=
  fork { s with
    workers := s.workers.eraseP fun y => y.id = x.id
    servers := Function.update s.servers x.id none
    exited := x.id :: s.exited } x.name

end PoolLayer

inductive PoolEvent where
  | start (workerId : WorkerId)
  | exit (workerId : WorkerId)
  | worker (workerId : WorkerId) (e : PipelineEvent)
  deriving DecidableEq, Repr

def poolStep (s : PoolLayer) : PoolEvent → Option PoolLayer
  | .start workerId =>
    match s.find workerId, s.servers workerId with
    | some x, none =>
      let p := Pipeline.create s.serverId workerId
      some ((s.setServer x p).reportConnectedClients x p)
    | _, _ => none
  | .exit workerId => (s.find workerId).map s.onExit
  | .worker workerId e =>
    match s.find workerId, s.servers workerId with
    | some x, some p => (pipelineStep p e).map fun p' =>
        if p.reports e then (s.setServer x p').reportConnectedClients x p' else s.setServer x p'
    | _, _ => none

/-- No listen is accepted under a name that the service does not produce. -/
def OfService (s : PoolLayer) : PoolEvent → Prop
  | .worker workerId e => ∀ p ∈ s.servers workerId, Listen.OfService p e
  | _ => True

/-- The number of sessions of a worker. -/
def sessions (s : PoolLayer) (workerId : WorkerId) : ℕ :=
  ((s.servers workerId).map fun p => p.server.sessionManager.sessionMap.keys.length).getD 0

/-- The listens of a worker that have made their session and not reported yet. -/
def unreported (s : PoolLayer) (workerId : WorkerId) : ℕ :=
  ((s.servers workerId).map Pipeline.unreported).getD 0

def gauge (s : PoolLayer) (workerName : ℕ) : Option ℤ := s.gauges.lookup (gaugeName workerName)

/-- What the pool is for. -/
structure Supervised (n : ℕ) (s : PoolLayer) : Prop where
  staffed : (s.workers.map Worker.name).Perm (workerNames n)
  ids : (s.workers.map Worker.id).Nodup
  gone : ∀ id ∈ s.exited, s.sendMsgToWorker id = .error "worker does not exist"
  alive : ∀ x ∈ s.workers, s.sendMsgToWorker x.id = .ok x
  gauges : ∀ x ∈ s.workers, (s.servers x.id).isSome = true →
    ∃ g, gauge s x.name = some g ∧ Lagging g (sessions s x.id) (unreported s x.id)
  total : (∀ x ∈ s.workers, (s.servers x.id).isSome = true) →
    Lagging ((workerNames n).map fun name => (gauge s name).getD 0).sum
      (s.workers.map fun x => sessions s x.id).sum (s.workers.map fun x => unreported s x.id).sum

/-! ### Names -/

theorem gaugeName_injective : Function.Injective gaugeName := by
  intro n m h
  have hlist := congrArg String.toList h
  simp only [gaugeName, String.toList_append, List.append_cancel_left_eq,
    List.append_cancel_right_eq] at hlist
  exact toString_inj hlist

theorem nodup_workerNames : ∀ n, (workerNames n).Nodup
  | 0 => by decide
  | _ + 1 => List.nodup_range'

/-! ### Workers -/

/-- The names of the workers, their ids, and what is known of the servers and gauges. -/
structure Staffed (names : List ℕ) (s : PoolLayer) : Prop where
  perm : (s.workers.map Worker.name).Perm names
  ids : (s.workers.map Worker.id).Nodup
  forked : ∀ x ∈ s.workers, x.id ≤ s.forked
  exited : ∀ id ∈ s.exited, id ≤ s.forked ∧ id ∉ s.workers.map Worker.id
  servers : ∀ id p, s.servers id = some p → id ≤ s.forked ∧ Managed p
  gauges : ∀ x ∈ s.workers, ∀ p, s.servers x.id = some p →
    ∃ g, gauge s x.name = some g ∧ p.Gauged g

section

variable {names : List ℕ} {s : PoolLayer}

theorem find_eq_some {x : Worker} {id : WorkerId} (h : s.find id = some x) :
    x ∈ s.workers ∧ x.id = id :=
  ⟨List.mem_of_find?_eq_some h, by simpa using List.find?_some h⟩

theorem Staffed.find (hs : Staffed names s) {x : Worker} (hx : x ∈ s.workers) :
    s.find x.id = some x := by
  obtain ⟨y, hy⟩ : ∃ y, s.find x.id = some y := by
    rw [← Option.isSome_iff_exists, PoolLayer.find, List.find?_isSome]
    exact ⟨x, hx, by simp⟩
  obtain ⟨hmem, hid⟩ := find_eq_some hy
  rw [hy, List.inj_on_of_nodup_map hs.ids hmem hx hid]

theorem Staffed.fork (hs : Staffed names s) (name : ℕ) : Staffed (names ++ [name]) (s.fork name) := by
  have hfresh : s.forked + 1 ∉ s.workers.map Worker.id := by
    intro hmem
    obtain ⟨x, hx, hid⟩ := List.mem_map.mp hmem
    exact absurd (hid ▸ hs.forked x hx) (Nat.not_succ_le_self _)
  refine ⟨?_, ?_, fun x hx => ?_, fun id hid => ?_, fun id w hw => ?_, fun x hx w hw => ?_⟩
  · simpa [PoolLayer.fork] using hs.perm.append_right [name]
  · rw [PoolLayer.fork, List.map_append, List.nodup_append_comm]
    simpa using ⟨by simpa using hfresh, hs.ids⟩
  · rcases List.mem_append.mp hx with hx | hx
    · exact Nat.le_succ_of_le (hs.forked x hx)
    · rw [List.mem_singleton.mp hx]
      exact le_rfl
  · obtain ⟨hle, hnot⟩ := hs.exited id hid
    refine ⟨Nat.le_succ_of_le hle, fun hmem => ?_⟩
    rw [PoolLayer.fork, List.map_append, List.mem_append] at hmem
    rcases hmem with hmem | hmem
    · exact hnot hmem
    · obtain rfl : id = s.forked + 1 := by simpa using hmem
      exact absurd hle (Nat.not_succ_le_self _)
  · exact ⟨Nat.le_succ_of_le (hs.servers id w hw).1, (hs.servers id w hw).2⟩
  · rcases List.mem_append.mp hx with hx | hx
    · exact hs.gauges x hx w hw
    · -- the id is new, there is no server yet
      rw [List.mem_singleton.mp hx] at hw
      have := (hs.servers _ w hw).1
      exact absurd this (Nat.not_succ_le_self _)

theorem staffed_foldl_fork : ∀ (l names : List ℕ) (s : PoolLayer), Staffed names s →
    Staffed (names ++ l) (l.foldl PoolLayer.fork s)
  | [], names, s, hs => by simpa using hs
  | name :: l, names, s, hs => by
      have := staffed_foldl_fork l (names ++ [name]) (s.fork name) (hs.fork name)
      simpa [List.append_assoc] using this

theorem staffed_startServer (serverId : ServerId) (workers : Option ℕ) (cpus : ℕ) :
    Staffed (workerNames (numWorkers workers cpus)) (.startServer serverId workers cpus) := by
  refine staffed_foldl_fork _ [] _ ⟨.refl _, List.nodup_nil, ?_, ?_, ?_, ?_⟩ <;> simp

/-- The worker that exits leaves its name to the next one, and nothing else. -/
theorem Staffed.onExit (hs : Staffed names s) {x : Worker} (hx : x ∈ s.workers) :
    Staffed names (s.onExit x) := by
  obtain ⟨y, l₁, l₂, hl₁, hy, hsplit, herase⟩ :=
    List.exists_of_eraseP (p := fun y : Worker => y.id = x.id) hx (by simp)
  have hyx : y = x := List.inj_on_of_nodup_map hs.ids (by simp [hsplit]) hx (by simpa using hy)
  subst hyx
  have hids := hs.ids
  rw [hsplit, List.map_append, List.map_cons, List.nodup_middle, List.nodup_cons,
    ← List.map_append] at hids
  have hmem : ∀ z ∈ l₁ ++ l₂, z ∈ s.workers ∧ z.id ≠ y.id := by
    intro z hz
    refine ⟨?_, fun hid => hids.1 (List.mem_map.mpr ⟨z, hz, hid⟩)⟩
    rw [hsplit]
    exact List.perm_middle.symm.subset (List.mem_cons_of_mem _ hz)
  -- the pool before the fork is staffed with the other names
  have hrest : Staffed ((l₁ ++ l₂).map Worker.name)
      { s with
        workers := l₁ ++ l₂
        servers := Function.update s.servers y.id none
        exited := y.id :: s.exited } := by
    refine ⟨.refl _, hids.2, fun z hz => hs.forked z (hmem z hz).1, fun id hid => ?_,
      fun id w hw => ?_, fun z hz w hw => ?_⟩
    · rcases List.mem_cons.mp hid with rfl | hid
      · exact ⟨hs.forked y hx, hids.1⟩
      · refine ⟨(hs.exited id hid).1, fun hold => (hs.exited id hid).2 ?_⟩
        obtain ⟨z, hz, rfl⟩ := List.mem_map.mp hold
        exact List.mem_map_of_mem (hmem z hz).1
    · by_cases hid : id = y.id
      · subst hid
        simp at hw
      · exact hs.servers id w (by simpa [Function.update_of_ne hid] using hw)
    · exact hs.gauges z (hmem z hz).1 w (by simpa [Function.update_of_ne (hmem z hz).2] using hw)
  have hperm : ((l₁ ++ l₂).map Worker.name ++ [y.name]).Perm names := by
    refine (List.perm_append_singleton _ _).trans (.trans ?_ hs.perm)
    rw [hsplit, List.map_append, List.map_append, List.map_cons]
    exact List.perm_middle.symm
  have hfork := hrest.fork y.name
  refine ⟨?_, ?_, ?_, ?_, ?_, ?_⟩ <;> rw [PoolLayer.onExit] <;> simp only [herase]
  · exact hfork.perm.trans hperm
  · exact hfork.ids
  · exact hfork.forked
  · exact hfork.exited
  · exact hfork.servers
  · exact hfork.gauges

/-! ### Gauges -/

theorem gauge_report_self (s : PoolLayer) (x : Worker) (p : Pipeline) :
    gauge (s.reportConnectedClients x p) x.name = some p.server.reportConnectedClients :=
  AList.lookup_insert _

theorem gauge_report_ne (s : PoolLayer) {x : Worker} {name : ℕ} (p : Pipeline) (h : name ≠ x.name) :
    gauge (s.reportConnectedClients x p) name = gauge s name :=
  AList.lookup_insert_ne fun heq => h (gaugeName_injective heq)

@[simp] theorem PoolLayer.setServer_servers (s : PoolLayer) (x : Worker) (p : Pipeline) :
    (s.setServer x p).servers = Function.update s.servers x.id (some p) := rfl

theorem mem_setServer {x : Worker} {p : Pipeline} {id : WorkerId} {q : Pipeline}
    (h : (s.setServer x p).servers id = some q) :
    id = x.id ∧ q = p ∨ id ≠ x.id ∧ s.servers id = some q := by
  by_cases hid : id = x.id
  · subst hid
    rw [PoolLayer.setServer_servers, Function.update_self] at h
    exact .inl ⟨rfl, (Option.some.inj h).symm⟩
  · rw [PoolLayer.setServer_servers, Function.update_of_ne hid] at h
    exact .inr ⟨hid, h⟩

theorem Staffed.servers_setServer (hs : Staffed names s) {x : Worker} {p : Pipeline}
    (hx : x ∈ s.workers) (hp : Managed p) {id : WorkerId} {q : Pipeline}
    (h : (s.setServer x p).servers id = some q) : id ≤ s.forked ∧ Managed q := by
  rcases mem_setServer h with ⟨rfl, rfl⟩ | ⟨-, h⟩
  · exact ⟨hs.forked x hx, hp⟩
  · exact hs.servers id q h

/-- A worker that reports sets its own gauge: no other worker has its name. -/
theorem Staffed.report (hs : Staffed names s) (hnames : names.Nodup) {x : Worker}
    (hx : x ∈ s.workers) {p : Pipeline} (hp : Managed p) :
    Staffed names ((s.setServer x p).reportConnectedClients x p) := by
  refine ⟨hs.perm, hs.ids, hs.forked, hs.exited, fun id q => hs.servers_setServer hx hp,
    fun z hz q hq => ?_⟩
  rcases mem_setServer hq with ⟨hid, rfl⟩ | ⟨hid, hq⟩
  · obtain rfl := List.inj_on_of_nodup_map hs.ids hz hx hid
    exact ⟨_, gauge_report_self _ _ _, q.gauged_report⟩
  · have hname : z.name ≠ x.name := fun heq => hid <| congrArg Worker.id <|
      List.inj_on_of_nodup_map (hs.perm.nodup_iff.mpr hnames) hz hx heq
    rw [gauge_report_ne _ _ hname]
    exact hs.gauges z hz q hq

/-- Without a report the gauge is still near enough. -/
theorem Staffed.setServer (hs : Staffed names s) {x : Worker} (hx : x ∈ s.workers)
    {p p' : Pipeline} (hold : s.servers x.id = some p) (hp : Managed p')
    (hgauged : ∀ g, p.Gauged g → p'.Gauged g) : Staffed names (s.setServer x p') := by
  refine ⟨hs.perm, hs.ids, hs.forked, hs.exited, fun id q => hs.servers_setServer hx hp,
    fun z hz q hq => ?_⟩
  rcases mem_setServer hq with ⟨hid, rfl⟩ | ⟨-, hq⟩
  · obtain rfl := List.inj_on_of_nodup_map hs.ids hz hx hid
    obtain ⟨g, hg, hnear⟩ := hs.gauges z hz p hold
    exact ⟨g, hg, hgauged g hnear⟩
  · exact hs.gauges z hz q hq

/-! ### Steps and runs -/

/-- Everything a step can do. -/
inductive Moves (s : PoolLayer) : PoolEvent → PoolLayer → Prop
  | start {x : Worker} (hx : x ∈ s.workers) : Moves s (.start x.id)
      ((s.setServer x (.create s.serverId x.id)).reportConnectedClients x (.create s.serverId x.id))
  | exit {x : Worker} (hx : x ∈ s.workers) : Moves s (.exit x.id) (s.onExit x)
  | reported {x : Worker} {p p' : Pipeline} {e : PipelineEvent} (hx : x ∈ s.workers)
      (hp : s.servers x.id = some p) (hstep : pipelineStep p e = some p') :
      Moves s (.worker x.id e) ((s.setServer x p').reportConnectedClients x p')
  | silent {x : Worker} {p p' : Pipeline} {e : PipelineEvent} (hx : x ∈ s.workers)
      (hp : s.servers x.id = some p) (hstep : pipelineStep p e = some p')
      (hsilent : p.reports e = false) : Moves s (.worker x.id e) (s.setServer x p')

theorem poolStep_cases {s' : PoolLayer} {e : PoolEvent} (h : poolStep s e = some s') : Moves s e s' := by
  cases e with
  | start id =>
    rw [poolStep] at h
    split at h
    next x hfind hnone =>
      obtain ⟨hx, rfl⟩ := find_eq_some hfind
      rw [← Option.some.inj h]
      exact .start hx
    next => simp at h
  | exit id =>
    obtain ⟨x, hfind, rfl⟩ := Option.map_eq_some_iff.mp h
    obtain ⟨hx, rfl⟩ := find_eq_some hfind
    exact .exit hx
  | worker id e =>
    rw [poolStep] at h
    split at h
    next x p hfind hp =>
      obtain ⟨hx, rfl⟩ := find_eq_some hfind
      obtain ⟨p', hstep, rfl⟩ := Option.map_eq_some_iff.mp h
      cases hreports : p.reports e with
      | true => exact .reported hx hp hstep
      | false => exact .silent hx hp hstep hreports
    next => simp at h

theorem Staffed.step (hs : Staffed names s) (hnames : names.Nodup) {s' : PoolLayer} {e : PoolEvent}
    (he : OfService s e) (h : poolStep s e = some s') : Staffed names s' := by
  cases poolStep_cases h with
  | start hx => exact hs.report hnames hx (.create _ _)
  | exit hx => exact hs.onExit hx
  | reported hx hp hstep => exact hs.report hnames hx ((hs.servers _ _ hp).2.step (he _ hp) hstep)
  | silent hx hp hstep hsilent =>
    exact hs.setServer hx hp ((hs.servers _ _ hp).2.step (he _ hp) hstep)
      fun g hg => hg.silent hsilent hstep

theorem Staffed.gauge_lagging (hs : Staffed names s) {x : Worker} (hx : x ∈ s.workers)
    (hstarted : (s.servers x.id).isSome = true) :
    ∃ g, gauge s x.name = some g ∧ Lagging g (sessions s x.id) (unreported s x.id) := by
  obtain ⟨p, hp⟩ := Option.isSome_iff_exists.mp hstarted
  obtain ⟨g, hg, hnear⟩ := hs.gauges x hx p hp
  have hcount := (hs.servers _ p hp).2.reportConnectedClients_eq
  refine ⟨g, hg, ?_⟩
  rw [sessions, unreported, hp]
  exact ⟨hnear.le.trans_eq hcount, hcount.symm.le.trans hnear.lag⟩

/-- Numbers that lag one by one lag in sum. -/
theorem lagging_sum {α : Type*} {f g h : α → ℤ} : ∀ {l : List α},
    (∀ x ∈ l, Lagging (f x) (g x) (h x)) → Lagging (l.map f).sum (l.map g).sum (l.map h).sum
  | [], _ => ⟨le_rfl, le_rfl⟩
  | x :: l, hl => by
      obtain ⟨hle, hlag⟩ := hl x (List.mem_cons_self ..)
      obtain ⟨hle', hlag'⟩ := lagging_sum fun y hy => hl y (List.mem_cons_of_mem _ hy)
      simp only [List.map_cons, List.sum_cons]
      constructor <;> omega

theorem Staffed.supervised {n : ℕ} (hs : Staffed (workerNames n) s) : Supervised n s where
  staffed := hs.perm
  ids := hs.ids
  gone id hid := by
    have hnone : s.find id = none := by
      refine List.find?_eq_none.mpr fun x hx heq => (hs.exited id hid).2 ?_
      exact List.mem_map.mpr ⟨x, hx, by simpa using heq⟩
    rw [PoolLayer.sendMsgToWorker, hnone]
  alive x hx := by rw [PoolLayer.sendMsgToWorker, hs.find hx]
  gauges x hx := hs.gauge_lagging hx
  total hall := by
    have hworkers : ∀ x ∈ s.workers,
        Lagging ((gauge s x.name).getD 0) (sessions s x.id) (unreported s x.id) := by
      intro x hx
      obtain ⟨g, hg, hlag⟩ := hs.gauge_lagging hx (hall x hx)
      rw [hg]
      exact hlag
    have hgauges : ((workerNames n).map fun name => (gauge s name).getD 0).sum
        = (s.workers.map fun x => (gauge s x.name).getD 0).sum := by
      rw [← (hs.perm.map _).sum_eq, List.map_map]
      rfl
    rw [hgauges, Nat.cast_list_sum, Nat.cast_list_sum, List.map_map, List.map_map]
    exact lagging_sum hworkers

end

/-- However its workers start, take their listens through the stages, close and exit: a server has one
    worker for each of its names, a message reaches every worker that has not exited and none that
    has, and the gauge of each worker that has started is the number of its sessions, or is behind by
    no more than the listens that have made their session and not reported it, and so is the sum of
    the gauges whenever no worker is about to start. -/
theorem pool_supervised (serverId : ServerId) (workers : Option ℕ) (cpus : ℕ) (es : List PoolEvent)
    (hes : AllSteps poolStep OfService (.startServer serverId workers cpus) es) :
    AllStates poolStep (Supervised (numWorkers workers cpus)) (.startServer serverId workers cpus)
      es := by
  intro pre s hpre hrun
  have hs : Staffed (workerNames (numWorkers workers cpus)) s :=
    inv_run (C := OfService) (fun _ _ _ hs he hstep => hs.step (nodup_workerNames _) he hstep)
      (staffed_startServer serverId workers cpus) (allSteps_initial hpre hes) hrun
  exact hs.supervised

/-- The client id for a byte that is drawn again and again. -/
def drawn (b : UInt8) : ClientId := String.ofList (Base64.urlSafe (Base64.encode (List.replicate 64 b)))

/-- The next stages of the first listen of a worker. -/
def stages (workerId : WorkerId) (now n : ℕ) : List PoolEvent :=
  List.replicate n (.worker workerId (.advance 0 now true))

/-- A worker with a client exits and is replaced; at another one a listen has just made its session. -/
def replaced : List PoolEvent :=
  [.start 1, .start 2, .worker 1 (.request ⟨0, drawn 0, "puid-0", true⟩),
    .worker 2 (.request ⟨1, drawn 1, "puid-1", true⟩)]
    ++ stages 1 10 5 ++ stages 2 20 3 ++ [.exit 1, .start 3]

/-- Stages are run for the two clients only. -/
def drawnOnly (s : PoolLayer) : PoolEvent → Bool
  | .worker workerId (.advance i _ _) => (s.servers workerId).all fun p => p.requests[i]?.all fun r =>
      r.req.clientId = drawn 0 ∨ r.req.clientId = drawn 1
  | _ => true

theorem ofService_of_drawnOnly (s : PoolLayer) (e : PoolEvent) (h : drawnOnly s e = true) :
    OfService s e := by
  have hproduced := fun b => (ClientId.Generated.repeated b).produced
  match e with
  | .start _ | .exit _ | .worker _ (.request _) | .worker _ (.close _ _)
  | .worker _ (.advance _ _ false) => simp [OfService, Listen.OfService]
  | .worker id (.advance i now true) =>
    intro p hp r hr _
    simp only [drawnOnly, Option.all_eq_true, decide_eq_true_eq] at h
    rcases h p hp r hr with heq | heq
    · exact heq ▸ hproduced 0
    · exact heq ▸ hproduced 1

theorem pool_supervised_replaced :
    AllSteps poolStep OfService (.startServer "server-0" (some 2) 4) replaced ∧
      ∃ s, run poolStep (.startServer "server-0" (some 2) 4) replaced = some s ∧ Supervised 2 s ∧
        s.workers = [⟨2, 2⟩, ⟨3, 1⟩] ∧ s.exited = [1] ∧ gauge s 1 = some 0 ∧
        gauge s 2 = some 0 ∧ sessions s 2 = 1 ∧ unreported s 2 = 1 := by
  have hes : AllSteps poolStep OfService (.startServer "server-0" (some 2) 4) replaced :=
    AllSteps.mono ofService_of_drawnOnly (by decide +kernel)
  refine ⟨hes, _, rfl, ?_, rfl, rfl, ?_, ?_, ?_, ?_⟩
  · exact pool_supervised "server-0" (some 2) 4 replaced hes _ _ (List.prefix_refl _) rfl
  all_goals decide +kernel

/-- Until the next worker of the name has started the gauge counts the client of the dead one. -/
example : (run poolStep (.startServer "server-0" (some 2) 4) replaced.dropLast).bind (gauge · 1)
    = some 1 := by decide +kernel

end Elephant.Pool
