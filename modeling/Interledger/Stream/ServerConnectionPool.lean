import Interledger.Lib.Machine
import Interledger.Lib.SingleFlight
import Interledger.Stream.ServerToken

/-!
# The connections of a server

`ServerConnectionPool` of `ilp-protocol-stream/src/pool.ts`. `getConnection` returns the connection that
is active for an id, or else waits for the one that is being set up, or else sets one up. Any of the awaits
of a set-up may last while other calls are made and connections close.

The tables are plain objects, which inherit some properties, and calls for the same id share the promise
of the call that came first.

A set-up and its connection have one number. Whether a connection was live for the id of a call when it
was made, and whether the server had generated the id, is recorded with the call; the program does not
look at either.

## Main results

* `IsIsolated` — what a call may come to;
* `Inv.getConnection`, `Inv.resume`, `Inv.react`, `Inv.close` — what the events keep;
* `isolated_of_reach` — the guarantee, in runs that keep calls apart;
* `not_isolated` — a call with an inherited name, and one that shares the promise of another.
-/

namespace Interledger.Stream

open Ilp (Buffer)
open SingleFlight (Tables Phase)

/-- A `ServerConnectionPool`. -/
structure ServerConnectionPool where
  crypto : Crypto
  serverSecret : Buffer
  /-- `connectionOpts` passes the checks of the constructor of `Connection`. -/
  optionsPass : Bool

namespace ServerConnectionPool

/-- The properties that every object inherits. -/
def inheritedNames : List String :=
  ["constructor", "__defineGetter__", "__defineSetter__", "hasOwnProperty", "__lookupGetter__",
    "__lookupSetter__", "isPrototypeOf", "propertyIsEnumerable", "toString", "valueOf", "__proto__",
    "toLocaleString"]

/-- What a table has for a name: something of its own or something inherited. -/
inductive Found
  | own (i : ℕ)
  | inherited
  deriving DecidableEq

/-- `table[id]`. -/
def lookup (table : String → Option ℕ) (id : String) : Option Found :=
  match table id with
  | some i => some (.own i)
  | none => if id ∈ inheritedNames then some .inherited else none

/-- The await that a set-up is at, or how its promise was settled. -/
inductive Stage
  /-- `generatePskEncryptionKey` -/
  | key
  /-- `decrypt` -/
  | decryption
  /-- `getSharedSecret`, which returned or threw -/
  | secret (returned : Bool)
  /-- `Connection.build` -/
  | building (details : TokenDetails)
  | fulfilled (details : TokenDetails)
  | rejected
  deriving DecidableEq

/-- There is a connection. -/
def Stage.isFulfilled : Stage → Bool
  | fulfilled _ => true
  | _ => false

/-- The promise is settled. -/
def Stage.isSettled : Stage → Bool
  | fulfilled _ => true
  | rejected => true
  | _ => false

/-- A call of `getConnection` that sets up a connection: its `id` and the data of its Prepare. `reacted` says
that the tables have been changed for its promise, `closed` that the connection has emitted `close`. -/
structure SetUp where
  id : String
  data : Buffer
  stage : Stage := .key
  reacted : Bool := false
  closed : Bool := false

/-- The connection is live. -/
def SetUp.isLive (setUp : SetUp) : Bool := setUp.stage.isFulfilled && !setUp.closed

/-- Where a call of `getConnection` is: at the promise of a set-up, its own or not, or at its end. -/
inductive CallState
  | waiting (setUp : ℕ) (own : Bool)
  | resolved (found : Found)
  | rejected
  deriving DecidableEq

/-- A call of `getConnection`, with the connection that was live for its id when it was made. -/
structure Call where
  id : String
  data : Buffer
  state : CallState
  live : Option ℕ
  generated : Bool
  deriving DecidableEq

/-- The ids that the server has generated, the set-ups, `pendingConnections` and `activeConnections`, and the
calls. -/
structure State where
  generated : List String
  setUps : List SetUp
  tables : Tables String
  calls : List Call

/-- What may happen. -/
inductive Event
  /-- `generateAddressAndSecret` -/
  | generate (opts : GenerateAddressSecretOpts) (tokenNonce : TokenNonce) (iv : Crypto.Iv)
  /-- `getConnection`, up to its first await -/
  | getConnection (id : String) (data : Buffer)
  /-- One of the awaits of a set-up ends. -/
  | resume (setUp : ℕ)
  /-- The call that waits for its own set-up goes on, or the promise is caught. -/
  | react (setUp : ℕ)
  /-- The promise of a call is settled. -/
  | settle (call : ℕ)
  /-- A connection emits `close`. -/
  | close (setUp : ℕ)

variable (pool : ServerConnectionPool)

/-- The constructor of `Connection` returns. -/
def constructs (details : TokenDetails) : Bool :=
  pool.optionsPass && details.receiptNonce.isSome == details.receiptSecret.isSome

/-- The stage of a set-up after the await that it is at. -/
def next (setUp : SetUp) : Option Stage :=
  match setUp.stage with
  | .key => some .decryption
  | .decryption => some (.secret (opens pool.crypto pool.serverSecret setUp.id setUp.data))
  | .secret false => some .rejected
  | .secret true =>
    match tokenDetails pool.crypto pool.serverSecret setUp.id with
    | some details => some (.building details)
    | none => some .rejected
  | .building details => some (if pool.constructs details then .fulfilled details else .rejected)
  | .fulfilled _ => none
  | .rejected => none

namespace State

variable (s : State)

/-- The connection that is live for an id. -/
def liveFor (id : String) : Option ℕ := s.setUps.findIdx? fun setUp => setUp.id = id && setUp.isLive

/-- A call that is made. -/
def call (id : String) (data : Buffer) (state : CallState) : Call :=
  { id, data, state, live := s.liveFor id, generated := id ∈ s.generated }

/-- `getConnection`, up to its first await. -/
def getConnection (id : String) (data : Buffer) : State :=
  match lookup s.tables.active id, lookup s.tables.pending id with
  | some found, _ => { s with calls := s.calls ++ [s.call id data (.resolved found)] }
  | none, some (.own i) => { s with calls := s.calls ++ [s.call id data (.waiting i false)] }
  | none, some .inherited => { s with calls := s.calls ++ [s.call id data (.resolved .inherited)] }
  | none, none =>
    { s with
      setUps := s.setUps ++ [{ id, data }]
      tables := s.tables.start id s.setUps.length
      calls := s.calls ++ [s.call id data (.waiting s.setUps.length true)] }

/-- How the promise that a call waits for was settled. A call that waits for its own set-up returns after it
has changed the tables. -/
def outcome : CallState → Option CallState
  | .waiting i own => do
    let setUp ← s.setUps[i]?
    if setUp.stage = .rejected then some .rejected
    else if setUp.stage.isFulfilled && (setUp.reacted || !own) then some (.resolved (.own i))
    else none
  | _ => none

/-- A set-up changes. -/
def setSetUp (i : ℕ) (setUp : SetUp) : State := { s with setUps := s.setUps.set i setUp }

end State

/-- The state after an event. -/
def step (s : State) : Event → Option State
  | .generate opts tokenNonce iv =>
    match generateToken pool.crypto pool.serverSecret opts tokenNonce iv with
    | .ok token => some { s with generated := connectionId token :: s.generated }
    | .error _ => some s
  | .getConnection id data => some (s.getConnection id data)
  | .resume i => do
    let setUp ← s.setUps[i]?
    let stage ← pool.next setUp
    some (s.setSetUp i { setUp with stage })
  | .react i => do
    let setUp ← s.setUps[i]?
    if setUp.reacted then none
    else if setUp.stage.isFulfilled then
      some { s.setSetUp i { setUp with reacted := true } with tables := s.tables.activate setUp.id i }
    else if setUp.stage = .rejected then
      some { s.setSetUp i { setUp with reacted := true } with tables := s.tables.drop setUp.id }
    else none
  | .settle c => do
    let call ← s.calls[c]?
    let state ← s.outcome call.state
    some { s with calls := s.calls.set c { call with state } }
  | .close i => do
    let setUp ← s.setUps[i]?
    if setUp.isLive then
      some { s.setSetUp i { setUp with closed := true } with tables := s.tables.retire setUp.id }
    else none

/-- A server without connections. -/
def initial : State := { generated := [], setUps := [], tables := Tables.empty, calls := [] }

/-- The runs of a server. -/
def machine : Machine State Event where
  init s := s = initial
  step := pool.step

/-! ### What is asked -/

/-- A call with this id and data is to get a connection, if there is none yet: the server has generated the
id, the data decrypts, and the options of the server make a connection. -/
def Admits (call : Call) : Prop :=
  call.generated = true ∧ opens pool.crypto pool.serverSecret call.id call.data = true ∧
    pool.optionsPass = true

/-- **What a call may come to**: the connection that was live when it was made, or, if there was none, a
connection for its id if it is to get one, and a rejection otherwise. If the server has not generated its id,
it is rejected. -/
def IsIsolated (s : State) (call : Call) : Prop :=
  match call.state with
  | .waiting _ _ => True
  | .resolved found => ∃ i setUp, found = .own i ∧ s.setUps[i]? = some setUp ∧ setUp.id = call.id ∧
      setUp.stage.isFulfilled = true ∧ call.generated = true ∧
      (call.live = some i ∨ call.live = none ∧ pool.Admits call)
  | .rejected => call.live = none ∧ ¬pool.Admits call

/-- No id has two live connections, and every call comes to what it may. -/
structure Isolated (s : State) : Prop where
  unique : ∀ (i j : ℕ) (u v : SetUp), s.setUps[i]? = some u → s.setUps[j]? = some v →
    u.isLive = true → v.isLive = true → u.id = v.id → i = j
  calls : ∀ call ∈ s.calls, pool.IsIsolated s call

/-- The call that a set-up begins with succeeds. -/
def accepts (id : String) (data : Buffer) : Bool :=
  opens pool.crypto pool.serverSecret id data &&
    (tokenDetails pool.crypto pool.serverSecret id).any pool.constructs

/-- The runs that keep calls apart. No id is an inherited name; an id with a token that decrypts has one that
the server has generated, and is the id that it has generated for it; a call that shares the promise of a
set-up, before there is a connection, is not to come to something else; and a connection closes after the
call that set it up has gone on. -/
def KeepsApart (s : State) : Event → Prop
  | .getConnection id data =>
    id ∉ inheritedNames ∧
    ((decryptSync pool.crypto pool.serverSecret (tokenOf id)).isSome = true →
      ∃ id' ∈ s.generated, tokenOf id' = tokenOf id) ∧
    (∀ id' ∈ s.generated, tokenOf id' = tokenOf id → id' = id) ∧
    ∀ i ∈ s.tables.pending id, ∀ setUp ∈ s.setUps[i]?, setUp.isLive = false →
      pool.accepts id setUp.data = pool.accepts id data
  | .close i => ∀ setUp ∈ s.setUps[i]?, setUp.reacted = true
  | _ => True

instance (s : State) : (e : Event) → Decidable (pool.KeepsApart s e)
  | .getConnection _ _ => inferInstanceAs (Decidable (_ ∧ _))
  | .close i => inferInstanceAs (Decidable (∀ setUp ∈ s.setUps[i]?, setUp.reacted = true))
  | .generate _ _ _ => inferInstanceAs (Decidable True)
  | .resume _ => inferInstanceAs (Decidable True)
  | .react _ => inferInstanceAs (Decidable True)
  | .settle _ => inferInstanceAs (Decidable True)

/-! ### The set-ups and the tables -/

/-- Where a set-up is, as a job. -/
def SetUp.phase (setUp : SetUp) : Phase :=
  if setUp.reacted then if setUp.isLive then .active else .ended else .pending

theorem SetUp.phase_eq_pending {setUp : SetUp} (h : setUp.reacted = false) : setUp.phase = .pending :=
  if_neg (Bool.not_eq_true _ ▸ h)

theorem SetUp.phase_ne_ended {setUp : SetUp} (h : setUp.isLive = true) : setUp.phase ≠ .ended := by
  unfold phase
  rw [if_pos h]
  split_ifs <;> exact nofun

/-- The set-ups, as jobs. -/
def State.jobs (s : State) : List (String × Phase) := s.setUps.map fun setUp => (setUp.id, setUp.phase)

/-- What is known of a set-up at each of its stages. -/
structure Sound (setUp : SetUp) : Prop where
  verdict : match setUp.stage with
    | .key => True
    | .decryption => True
    | .secret returned => opens pool.crypto pool.serverSecret setUp.id setUp.data = returned
    | .building details =>
      opens pool.crypto pool.serverSecret setUp.id setUp.data = true ∧
        tokenDetails pool.crypto pool.serverSecret setUp.id = some details
    | .fulfilled _ => pool.accepts setUp.id setUp.data = true
    | .rejected => pool.accepts setUp.id setUp.data = false
  settled : setUp.reacted = true → setUp.stage.isSettled = true
  closed : setUp.closed = true → setUp.reacted = true

/-- What is known of a call. One that waits has the connection that was live for its id, or else waits for a
promise that comes to what its own would. -/
def Follows (s : State) (call : Call) : Prop :=
  match call.state with
  | .waiting i _ => ∃ setUp, s.setUps[i]? = some setUp ∧ setUp.id = call.id ∧
      (call.live = some i ∧ setUp.stage.isFulfilled = true ∧ call.generated = true ∨
        call.live = none ∧ pool.accepts call.id setUp.data = pool.accepts call.id call.data)
  | _ => pool.IsIsolated s call

/-- What holds in every run that keeps calls apart. -/
structure Inv (s : State) : Prop where
  tables : s.tables.Holds s.jobs
  setUps : ∀ setUp ∈ s.setUps, pool.Sound setUp
  generated : ∀ id ∈ s.generated, ∃ details, tokenDetails pool.crypto pool.serverSecret id = some details ∧
    details.receiptNonce.isSome = details.receiptSecret.isSome
  admits : ∀ call ∈ s.calls, pool.accepts call.id call.data = true ↔ pool.Admits call
  calls : ∀ call ∈ s.calls, pool.Follows s call

/-- Set-ups keep their ids and packets, and a connection that there is remains. -/
def Grows (s t : State) : Prop :=
  ∀ (i : ℕ) (u : SetUp), s.setUps[i]? = some u →
    ∃ v, t.setUps[i]? = some v ∧ v.id = u.id ∧ v.data = u.data ∧
      (u.stage.isFulfilled = true → v.stage.isFulfilled = true)

variable {pool} {s t : State} {i : ℕ} {u v : SetUp} {call : Call}

theorem Grows.of_eq (h : t.setUps = s.setUps) : Grows s t :=
  fun _ u h_u => ⟨u, h ▸ h_u, rfl, rfl, id⟩

theorem Grows.concat (h : t.setUps = s.setUps ++ [v]) : Grows s t := by
  intro j u h_u
  refine ⟨u, ?_, rfl, rfl, id⟩
  rw [h]
  exact SingleFlight.getElem?_concat_eq_some.mpr (.inl h_u)

/-- One set-up changes. -/
theorem Grows.set (h : t.setUps = s.setUps.set i v) (h_u : s.setUps[i]? = some u) (h_id : v.id = u.id)
    (h_data : v.data = u.data) (h_fulfilled : u.stage.isFulfilled = true → v.stage.isFulfilled = true) :
    Grows s t := by
  intro j w h_w
  by_cases h_same : j = i
  · subst h_same
    obtain rfl : u = w := Option.some.inj (h_u.symm.trans h_w)
    refine ⟨v, ?_, h_id, h_data, h_fulfilled⟩
    rw [h]
    exact (SingleFlight.getElem?_set_eq_some h_u).mpr (.inl ⟨rfl, rfl⟩)
  · refine ⟨w, ?_, rfl, rfl, id⟩
    rw [h]
    exact (SingleFlight.getElem?_set_eq_some h_u).mpr (.inr ⟨h_same, h_w⟩)

/-- What a call came to stays. -/
theorem IsIsolated.grows (h : pool.IsIsolated s call) (h_grows : Grows s t) : pool.IsIsolated t call := by
  unfold IsIsolated at h ⊢
  split at h
  · trivial
  · obtain ⟨i, u, h_found, h_u, h_id, h_fulfilled, h_generated⟩ := h
    obtain ⟨v, h_v, h_id', -, h_keep⟩ := h_grows i u h_u
    exact ⟨i, v, h_found, h_v, h_id'.trans h_id, h_keep h_fulfilled, h_generated⟩
  · exact h

theorem Follows.grows (h : pool.Follows s call) (h_grows : Grows s t) : pool.Follows t call := by
  unfold Follows at h ⊢
  split at h
  · obtain ⟨u, h_u, h_id, h_or⟩ := h
    obtain ⟨v, h_v, h_id', h_data, h_keep⟩ := h_grows _ u h_u
    refine ⟨v, h_v, h_id'.trans h_id, ?_⟩
    rw [h_data]
    exact h_or.imp (fun ⟨h_live, h_fulfilled, h_generated⟩ => ⟨h_live, h_keep h_fulfilled, h_generated⟩) id
  · exact IsIsolated.grows h h_grows

/-- The job of a set-up. -/
theorem getElem?_jobs (h_u : s.setUps[i]? = some u) : s.jobs[i]? = some (u.id, u.phase) := by
  rw [State.jobs, List.getElem?_map, h_u]
  rfl

/-- The set-up of a job. -/
theorem exists_of_getElem?_jobs {id : String} {phase : Phase} (h : s.jobs[i]? = some (id, phase)) :
    ∃ u, s.setUps[i]? = some u ∧ u.id = id ∧ u.phase = phase := by
  rw [State.jobs, List.getElem?_map] at h
  obtain ⟨u, h_u, h_eq⟩ := Option.map_eq_some_iff.mp h
  exact ⟨u, h_u, congrArg Prod.fst h_eq, congrArg Prod.snd h_eq⟩

namespace Inv

theorem sound (h : pool.Inv s) (h_u : s.setUps[i]? = some u) : pool.Sound u :=
  h.setUps u (List.mem_of_getElem? h_u)

/-- **No id has two live connections.** -/
theorem unique (h : pool.Inv s) {j : ℕ} (h_u : s.setUps[i]? = some u) (h_v : s.setUps[j]? = some v)
    (h_id : u.id = v.id) (hu : u.phase ≠ .ended) (hv : v.isLive = true) : i = j := by
  have h_j := getElem?_jobs h_v
  rw [← h_id] at h_j
  exact h.tables.unique (getElem?_jobs h_u) h_j hu (SetUp.phase_ne_ended hv)

/-- The connection that is live for an id. -/
theorem liveFor_eq_some (h : pool.Inv s) (h_u : s.setUps[i]? = some u) (h_live : u.isLive = true) :
    s.liveFor u.id = some i := by
  cases h_find : s.liveFor u.id with
  | none =>
    have h_not := List.findIdx?_eq_none_iff.mp h_find u (List.mem_of_getElem? h_u)
    rw [h_live, Bool.and_true, decide_eq_false_iff_not] at h_not
    exact absurd rfl h_not
  | some j =>
    obtain ⟨h_lt, h_found, -⟩ := List.findIdx?_eq_some_iff_getElem.mp h_find
    obtain ⟨h_id, h_live'⟩ := (Bool.and_eq_true _ _).mp h_found
    have h_same := h.unique h_u (List.getElem?_eq_getElem h_lt) (of_decide_eq_true h_id).symm
      (SetUp.phase_ne_ended h_live) h_live'
    rw [h_same]

/-- There is none if a set-up for the id is under way and has none, or if no set-up is. -/
theorem liveFor_eq_none {id : String}
    (h : ∀ (j : ℕ) (v : SetUp), s.setUps[j]? = some v → v.id = id → v.isLive = false) : s.liveFor id = none := by
  apply List.findIdx?_eq_none_iff.mpr
  intro v h_mem
  obtain ⟨j, h_v⟩ := List.getElem?_of_mem h_mem
  by_cases h_id : v.id = id
  · rw [h j v h_v h_id, Bool.and_false]
  · rw [decide_eq_false h_id, Bool.false_and]

/-- A change of the set-ups. -/
theorem grow (h : pool.Inv s) (h_tables : t.tables.Holds t.jobs) (h_setUps : ∀ u ∈ t.setUps, pool.Sound u)
    (h_grows : Grows s t) (h_generated : t.generated = s.generated) (h_calls : t.calls = s.calls) :
    pool.Inv t where
  tables := h_tables
  setUps := h_setUps
  generated := h_generated ▸ h.generated
  admits := h_calls ▸ h.admits
  calls call h_call := (h.calls call (h_calls ▸ h_call)).grows h_grows

/-- A change of one set-up, and of its job. -/
theorem set (h : pool.Inv s) {tables : Tables String} (h_u : s.setUps[i]? = some u) (h_id : v.id = u.id)
    (h_data : v.data = u.data) (h_fulfilled : u.stage.isFulfilled = true → v.stage.isFulfilled = true)
    (h_sound : pool.Sound v) (h_tables : tables.Holds (s.jobs.set i (u.id, v.phase))) :
    pool.Inv { s.setSetUp i v with tables } := by
  apply h.grow (t := { s.setSetUp i v with tables })
  · change tables.Holds ((s.setUps.set i v).map fun setUp => (setUp.id, setUp.phase))
    rw [List.map_set, h_id]
    exact h_tables
  · intro w h_w
    exact (List.mem_or_eq_of_mem_set h_w).elim (h.setUps w) fun h_eq => h_eq ▸ h_sound
  · exact Grows.set rfl h_u h_id h_data h_fulfilled
  · rfl
  · rfl

/-- A call. -/
theorem addCall (h : pool.Inv s) (call : Call) (h_admits : pool.accepts call.id call.data = true ↔ pool.Admits call)
    (h_follows : pool.Follows s call) : pool.Inv { s with calls := s.calls ++ [call] } where
  tables := h.tables
  setUps := h.setUps
  generated := h.generated
  admits := by
    intro c h_c
    rcases List.mem_append.mp h_c with h_old | h_new
    · exact h.admits c h_old
    · rw [List.mem_singleton.mp h_new]
      exact h_admits
  calls := by
    intro c h_c
    rcases List.mem_append.mp h_c with h_old | h_new
    · exact (h.calls c h_old).grows (Grows.of_eq rfl)
    · rw [List.mem_singleton.mp h_new]
      exact h_follows.grows (Grows.of_eq rfl)

/-- Only an id that the server has generated gets a connection. -/
theorem generated_of_accepts {id : String} {data data' : Buffer}
    (h_apart : pool.KeepsApart s (.getConnection id data')) (h_accepts : pool.accepts id data = true) :
    id ∈ s.generated := by
  obtain ⟨-, h_genuine, h_canonical, -⟩ := h_apart
  obtain ⟨details, h_details, -⟩ :=
    (Option.any_eq_true _ _).mp ((Bool.and_eq_true _ _).mp h_accepts).2
  -- a token that is read was decrypted
  obtain ⟨plaintext, h_plaintext, -⟩ := Option.bind_eq_some_iff.mp h_details
  obtain ⟨id', h_mem, h_token⟩ := h_genuine (Option.isSome_iff_exists.mpr ⟨plaintext, h_plaintext⟩)
  rw [← h_canonical id' h_mem h_token]
  exact h_mem

/-- A set-up that is fulfilled was accepted. -/
theorem accepts_of_isFulfilled (h : pool.Inv s) (h_u : s.setUps[i]? = some u)
    (h_fulfilled : u.stage.isFulfilled = true) : pool.accepts u.id u.data = true := by
  have h_verdict := (h.sound h_u).verdict
  cases h_stage : u.stage with
  | fulfilled details =>
    rw [h_stage] at h_verdict
    exact h_verdict
  | _ =>
    rw [h_stage] at h_fulfilled
    cases h_fulfilled

/-- A call is accepted if it is to get a connection. -/
theorem accepts_iff (h : pool.Inv s) {id : String} {data : Buffer}
    (h_apart : pool.KeepsApart s (.getConnection id data)) (state : CallState) :
    pool.accepts id data = true ↔ pool.Admits (s.call id data state) := by
  constructor
  · intro h_accepts
    obtain ⟨h_opens, h_any⟩ := (Bool.and_eq_true _ _).mp h_accepts
    obtain ⟨details, -, h_constructs⟩ := (Option.any_eq_true _ _).mp h_any
    exact ⟨decide_eq_true (generated_of_accepts h_apart h_accepts), h_opens,
      ((Bool.and_eq_true _ _).mp h_constructs).1⟩
  · rintro ⟨h_generated, h_opens, h_options⟩
    obtain ⟨details, h_details, h_both⟩ := h.generated id (of_decide_eq_true h_generated)
    have h_constructs : pool.constructs details = true :=
      (Bool.and_eq_true _ _).mpr ⟨h_options, beq_iff_eq.mpr h_both⟩
    unfold accepts
    rw [h_details]
    exact (Bool.and_eq_true _ _).mpr ⟨h_opens, h_constructs⟩

end Inv

/-- A table has nothing but its own for a name that is not inherited. -/
theorem lookup_of_notMem {table : String → Option ℕ} {id : String} (h : id ∉ inheritedNames) :
    lookup table id = (table id).map .own := by
  unfold lookup
  split
  · next h_own => rw [h_own]; rfl
  · next h_none =>
    rw [h_none, if_neg h]
    rfl

namespace Inv

/-- **`getConnection` up to its first await.** -/
theorem getConnection (h : pool.Inv s) {id : String} {data : Buffer}
    (h_apart : pool.KeepsApart s (.getConnection id data)) : pool.Inv (s.getConnection id data) := by
  -- the call is admitted if and only if its packet would be accepted
  have h_admits := h.accepts_iff h_apart
  -- a set-up that was fulfilled was for a token of this server
  have h_generated {i : ℕ} {u : SetUp} (h_u : s.setUps[i]? = some u) (h_id : u.id = id)
      (h_fulfilled : u.stage.isFulfilled = true) : decide (id ∈ s.generated) = true := by
    have h_accepts := h.accepts_of_isFulfilled h_u h_fulfilled
    rw [h_id] at h_accepts
    exact decide_eq_true (generated_of_accepts h_apart h_accepts)
  obtain ⟨h_name, -, -, h_shared⟩ := h_apart
  unfold State.getConnection
  rw [lookup_of_notMem h_name, lookup_of_notMem h_name]
  cases h_active : s.tables.active id with
  | some i =>
    -- the connection that is active is live
    obtain ⟨u, h_u, rfl, h_phase⟩ := exists_of_getElem?_jobs ((h.tables.active_iff id i).mp h_active)
    have h_live : u.isLive = true := by
      unfold SetUp.phase at h_phase
      split_ifs at h_phase with h_reacted h_live
      exact h_live
    apply h.addCall (s.call u.id data (.resolved (.own i))) (h_admits (.resolved (.own i)))
    have h_fulfilled := ((Bool.and_eq_true _ _).mp h_live).1
    exact ⟨i, u, rfl, h_u, rfl, h_fulfilled, h_generated h_u rfl h_fulfilled,
      .inl (h.liveFor_eq_some h_u h_live)⟩
  | none =>
    -- otherwise a set-up for the id may be under way, and the call waits for it
    cases h_pending : s.tables.pending id with
    | some i =>
      obtain ⟨u, h_u, rfl, h_phase⟩ := exists_of_getElem?_jobs ((h.tables.pending_iff id i).mp h_pending)
      apply h.addCall (s.call u.id data (.waiting i false)) (h_admits (.waiting i false))
      refine ⟨u, h_u, rfl, ?_⟩
      by_cases h_live : u.isLive = true
      · have h_fulfilled := ((Bool.and_eq_true _ _).mp h_live).1
        exact .inl ⟨h.liveFor_eq_some h_u h_live, h_fulfilled, h_generated h_u rfl h_fulfilled⟩
      · -- what is under way for the id is this set-up, which has no connection yet
        have h_none : s.liveFor u.id = none := by
          apply liveFor_eq_none
          intro j v h_v h_id
          by_contra h_other
          have h_same : i = j :=
            h.unique h_u h_v h_id.symm (h_phase ▸ nofun) (Bool.not_eq_false _ ▸ h_other)
          rw [← h_same, h_u] at h_v
          exact h_live (Option.some.inj h_v ▸ Bool.not_eq_false _ ▸ h_other)
        exact .inr ⟨h_none, h_shared i h_pending u h_u (Bool.not_eq_true _ ▸ h_live)⟩
    | none =>
      -- or there is none, and one starts
      have h_none : s.liveFor id = none := by
        apply liveFor_eq_none
        intro j v h_v h_id
        by_contra h_live
        have h_job := getElem?_jobs h_v
        rw [h_id] at h_job
        cases h_phase : v.phase with
        | pending =>
          rw [h_phase, ← h.tables.pending_iff, h_pending] at h_job
          cases h_job
        | active =>
          rw [h_phase, ← h.tables.active_iff, h_active] at h_job
          cases h_job
        | ended => exact SetUp.phase_ne_ended (Bool.not_eq_false _ ▸ h_live) h_phase
      -- the tables take it in, and it waits for its secret
      have h_new : pool.Inv { s with
          setUps := s.setUps ++ [{ id, data }], tables := s.tables.start id s.setUps.length } := by
        apply h.grow (s := s)
        · have h_start := h.tables.start h_pending h_active
          rw [State.jobs, List.length_map] at h_start
          rw [State.jobs, List.map_append]
          exact h_start
        · intro w h_w
          rcases List.mem_append.mp h_w with h_old | h_last
          · exact h.setUps w h_old
          · rw [List.mem_singleton.mp h_last]
            exact { verdict := trivial, settled := nofun, closed := nofun }
        · exact Grows.concat rfl
        · rfl
        · rfl
      apply h_new.addCall (s.call id data (.waiting s.setUps.length true))
        (h_admits (.waiting s.setUps.length true))
      exact ⟨_, List.getElem?_concat_length, rfl, .inr ⟨h_none, rfl⟩⟩

/-- `generateAddressAndSecret`: what is generated can be read. -/
theorem generate (h : pool.Inv s) {opts : GenerateAddressSecretOpts} {tokenNonce : TokenNonce} {iv : Crypto.Iv}
    {token : Buffer} (h_token : generateToken pool.crypto pool.serverSecret opts tokenNonce iv = .ok token) :
    pool.Inv { s with generated := connectionId token :: s.generated } where
  tables := h.tables
  setUps := h.setUps
  generated id h_id := by
    rcases List.mem_cons.mp h_id with rfl | h_old
    · exact ⟨opts.details, tokenDetails_of_generate h_token⟩
    · exact h.generated id h_old
  admits := h.admits
  calls call h_call := (h.calls call h_call).grows (Grows.of_eq rfl)

end Inv

/-- An await of a set-up ends. -/
theorem Sound.next (h : pool.Sound u) {stage : Stage} (h_next : pool.next u = some stage) :
    u.stage.isSettled = false ∧ pool.Sound { u with stage } := by
  have h_verdict := h.verdict
  -- nothing has reacted to a set-up that goes on
  have h_not (h_stage : u.stage.isSettled = false) (h_reacted : u.reacted = true) : False := by
    rw [h.settled h_reacted] at h_stage
    cases h_stage
  unfold ServerConnectionPool.next at h_next
  -- what the verdict says is computed stage by stage
  cases h_stage : u.stage with
  | key =>
    rw [h_stage] at h_next h_not
    obtain rfl := Option.some.inj h_next
    exact ⟨rfl, trivial, fun h_reacted => (h_not rfl h_reacted).elim, h.closed⟩
  | decryption =>
    rw [h_stage] at h_next h_not
    obtain rfl := Option.some.inj h_next
    exact ⟨rfl, rfl, fun h_reacted => (h_not rfl h_reacted).elim, h.closed⟩
  | secret returned =>
    rw [h_stage] at h_next h_not h_verdict
    cases returned with
    | false =>
      obtain rfl := Option.some.inj h_next
      refine ⟨rfl, ?_, fun _ => rfl, h.closed⟩
      change (opens pool.crypto pool.serverSecret u.id u.data && _) = false
      rw [h_verdict, Bool.false_and]
    | true =>
      -- the token may have no details
      cases h_details : tokenDetails pool.crypto pool.serverSecret u.id with
      | none =>
        simp only [h_details] at h_next
        obtain rfl := Option.some.inj h_next
        refine ⟨rfl, ?_, fun _ => rfl, h.closed⟩
        change (_ && (tokenDetails pool.crypto pool.serverSecret u.id).any pool.constructs) = false
        rw [h_details, Option.any_none, Bool.and_false]
      | some details =>
        simp only [h_details] at h_next
        obtain rfl := Option.some.inj h_next
        exact ⟨rfl, ⟨h_verdict, h_details⟩, fun h_reacted => (h_not rfl h_reacted).elim, h.closed⟩
  | building details =>
    rw [h_stage] at h_next h_verdict
    obtain ⟨h_opens, h_details⟩ := h_verdict
    -- and the details may be such that no connection can be made
    have h_accepts : pool.accepts u.id u.data = pool.constructs details := by
      unfold accepts
      rw [h_opens, h_details, Option.any_some, Bool.true_and]
    cases h_constructs : pool.constructs details with
    | true =>
      simp only [h_constructs, if_true] at h_next
      obtain rfl := Option.some.inj h_next
      exact ⟨rfl, h_accepts.trans h_constructs, fun _ => rfl, h.closed⟩
    | false =>
      simp only [h_constructs, Bool.false_eq_true, if_false] at h_next
      obtain rfl := Option.some.inj h_next
      exact ⟨rfl, h_accepts.trans h_constructs, fun _ => rfl, h.closed⟩
  | fulfilled details =>
    rw [h_stage] at h_next
    cases h_next
  | rejected =>
    rw [h_stage] at h_next
    cases h_next

/-- What is fulfilled is settled. -/
theorem Stage.isSettled_of_isFulfilled {stage : Stage} (h : stage.isFulfilled = true) :
    stage.isSettled = true := by
  cases stage <;> first | rfl | cases h

namespace Inv

/-- Before the tables have been changed for it a set-up is pending. -/
theorem reacted_eq_false (h : pool.Inv s) (h_u : s.setUps[i]? = some u) (h_stage : u.stage.isSettled = false) :
    u.reacted = false := by
  by_contra h_reacted
  rw [(h.sound h_u).settled (Bool.not_eq_false _ ▸ h_reacted)] at h_stage
  cases h_stage

/-- **An await of a set-up ends.** -/
theorem resume (h : pool.Inv s) (h_u : s.setUps[i]? = some u) {stage : Stage}
    (h_next : pool.next u = some stage) : pool.Inv (s.setSetUp i { u with stage }) := by
  obtain ⟨h_stage, h_sound⟩ := (h.sound h_u).next h_next
  have h_reacted := h.reacted_eq_false h_u h_stage
  apply h.set (v := { u with stage }) h_u rfl rfl
  · intro h_fulfilled
    rw [Stage.isSettled_of_isFulfilled h_fulfilled] at h_stage
    cases h_stage
  · exact h_sound
  · -- it was pending and still is
    have h_job := getElem?_jobs h_u
    rw [SetUp.phase_eq_pending h_reacted] at h_job
    obtain ⟨h_lt, h_eq⟩ := List.getElem?_eq_some_iff.mp h_job
    have h_phase : SetUp.phase { u with stage } = .pending := SetUp.phase_eq_pending h_reacted
    rw [h_phase, ← h_eq, List.set_getElem_self]
    exact h.tables

/-- **The call that set up a connection goes on.** -/
theorem react_fulfilled (h : pool.Inv s) (h_u : s.setUps[i]? = some u) (h_reacted : u.reacted = false)
    (h_fulfilled : u.stage.isFulfilled = true) :
    pool.Inv { s.setSetUp i { u with reacted := true } with tables := s.tables.activate u.id i } := by
  have h_sound := h.sound h_u
  have h_closed : u.closed = false := by
    by_contra h_closed
    rw [h_sound.closed (Bool.not_eq_false _ ▸ h_closed)] at h_reacted
    cases h_reacted
  have h_job := getElem?_jobs h_u
  rw [SetUp.phase_eq_pending h_reacted] at h_job
  have h_phase : SetUp.phase { u with reacted := true } = .active := by
    unfold SetUp.phase SetUp.isLive
    rw [if_pos rfl, h_fulfilled, h_closed]
    rfl
  apply h.set (v := { u with reacted := true }) h_u rfl rfl id
  · exact ⟨h_sound.verdict, fun _ => Stage.isSettled_of_isFulfilled h_fulfilled, fun _ => rfl⟩
  · rw [h_phase]
    exact h.tables.activate h_job

/-- **The promise of a set-up is caught.** -/
theorem react_rejected (h : pool.Inv s) (h_u : s.setUps[i]? = some u) (h_reacted : u.reacted = false)
    (h_rejected : u.stage = .rejected) :
    pool.Inv { s.setSetUp i { u with reacted := true } with tables := s.tables.drop u.id } := by
  have h_job := getElem?_jobs h_u
  rw [SetUp.phase_eq_pending h_reacted] at h_job
  have h_phase : SetUp.phase { u with reacted := true } = .ended := by
    unfold SetUp.phase SetUp.isLive
    rw [if_pos rfl, h_rejected]
    rfl
  apply h.set (v := { u with reacted := true }) h_u rfl rfl id
  · refine ⟨(h.sound h_u).verdict, fun _ => ?_, fun _ => rfl⟩
    rw [h_rejected]
    rfl
  · rw [h_phase]
    exact h.tables.drop h_job

/-- **A connection closes.** -/
theorem close (h : pool.Inv s) (h_u : s.setUps[i]? = some u) (h_live : u.isLive = true)
    (h_reacted : u.reacted = true) :
    pool.Inv { s.setSetUp i { u with closed := true } with tables := s.tables.retire u.id } := by
  have h_job := getElem?_jobs h_u
  have h_active : u.phase = .active := by
    unfold SetUp.phase
    rw [if_pos h_reacted, if_pos h_live]
  rw [h_active] at h_job
  have h_phase : SetUp.phase { u with closed := true } = .ended := by
    unfold SetUp.phase SetUp.isLive
    rw [if_pos h_reacted, Bool.not_true, Bool.and_false]
    rfl
  apply h.set (v := { u with closed := true }) h_u rfl rfl id
  · exact ⟨(h.sound h_u).verdict, (h.sound h_u).settled, fun _ => h_reacted⟩
  · rw [h_phase]
    exact h.tables.retire h_job

/-- What a call that follows a set-up comes to. -/
theorem follows_of_outcome (h : pool.Inv s) (h_call : call ∈ s.calls) {state : CallState}
    (h_outcome : s.outcome call.state = some state) : pool.Follows s { call with state } := by
  have h_follows := h.calls call h_call
  have h_admits := h.admits call h_call
  -- only a call that waits comes to an outcome
  cases h_state : call.state with
  | resolved found =>
    rw [h_state] at h_outcome
    cases h_outcome
  | rejected =>
    rw [h_state] at h_outcome
    cases h_outcome
  | waiting i own =>
    unfold Follows at h_follows
    rw [h_state] at h_outcome h_follows
    obtain ⟨u, h_u, h_id, h_or⟩ := h_follows
    have h_verdict := (h.sound h_u).verdict
    simp only [State.outcome, h_u, Option.bind_eq_bind, Option.bind_some] at h_outcome
    -- its set-up was rejected or fulfilled, and the call with it
    split_ifs at h_outcome with h_rejected h_fulfilled
    · obtain rfl := Option.some.inj h_outcome
      rw [h_rejected] at h_or h_verdict
      obtain ⟨-, h_no, -⟩ | ⟨h_live, h_same⟩ := h_or
      · cases h_no
      · refine ⟨h_live, fun h_yes => ?_⟩
        rw [h_admits.mpr h_yes, ← h_id] at h_same
        exact Bool.false_ne_true (h_verdict.symm.trans h_same)
    · obtain rfl := Option.some.inj h_outcome
      have h_stage := ((Bool.and_eq_true _ _).mp h_fulfilled).1
      obtain ⟨h_live, -, h_generated⟩ | ⟨h_live, h_same⟩ := h_or
      · exact ⟨i, u, rfl, h_u, h_id, h_stage, h_generated, .inl h_live⟩
      · -- a connection that was made for another call is there for this one too
        have h_accepts := h.accepts_of_isFulfilled h_u h_stage
        rw [h_id] at h_accepts
        have h_yes := h_admits.mp (h_same.symm.trans h_accepts)
        exact ⟨i, u, rfl, h_u, h_id, h_stage, h_yes.1, .inr ⟨h_live, h_yes⟩⟩

/-- **The promise of a call is settled.** -/
theorem settle (h : pool.Inv s) {c : ℕ} (h_c : s.calls[c]? = some call) {state : CallState}
    (h_outcome : s.outcome call.state = some state) :
    pool.Inv { s with calls := s.calls.set c { call with state } } where
  tables := h.tables
  setUps := h.setUps
  generated := h.generated
  admits := by
    intro d h_d
    rcases List.mem_or_eq_of_mem_set h_d with h_old | rfl
    · exact h.admits d h_old
    · exact h.admits call (List.mem_of_getElem? h_c)
  calls := by
    intro d h_d
    rcases List.mem_or_eq_of_mem_set h_d with h_old | rfl
    · exact (h.calls d h_old).grows (Grows.of_eq rfl)
    · exact (h.follows_of_outcome (List.mem_of_getElem? h_c) h_outcome).grows (Grows.of_eq rfl)

/-- **What each event keeps.** -/
theorem step (h : pool.Inv s) {e : Event} (h_apart : pool.KeepsApart s e) (h_step : pool.step s e = some t) :
    pool.Inv t := by
  cases e with
  | generate opts tokenNonce iv =>
    simp only [ServerConnectionPool.step] at h_step
    cases h_token : generateToken pool.crypto pool.serverSecret opts tokenNonce iv with
    | ok token =>
      rw [h_token] at h_step
      obtain rfl := Option.some.inj h_step
      exact h.generate h_token
    | error e =>
      rw [h_token] at h_step
      obtain rfl := Option.some.inj h_step
      exact h
  | getConnection id data =>
    obtain rfl := Option.some.inj h_step
    exact h.getConnection h_apart
  | resume i =>
    obtain ⟨u, h_u, h_step⟩ := Option.bind_eq_some_iff.mp h_step
    obtain ⟨stage, h_next, h_step⟩ := Option.bind_eq_some_iff.mp h_step
    obtain rfl := Option.some.inj h_step
    exact h.resume h_u h_next
  | react i =>
    obtain ⟨u, h_u, h_step⟩ := Option.bind_eq_some_iff.mp h_step
    split_ifs at h_step with h_reacted h_fulfilled h_rejected
    · obtain rfl := Option.some.inj h_step
      exact h.react_fulfilled h_u (Bool.not_eq_true _ ▸ h_reacted) h_fulfilled
    · obtain rfl := Option.some.inj h_step
      exact h.react_rejected h_u (Bool.not_eq_true _ ▸ h_reacted) h_rejected
  | settle c =>
    obtain ⟨call, h_c, h_step⟩ := Option.bind_eq_some_iff.mp h_step
    obtain ⟨state, h_outcome, h_step⟩ := Option.bind_eq_some_iff.mp h_step
    obtain rfl := Option.some.inj h_step
    exact h.settle h_c h_outcome
  | close i =>
    obtain ⟨u, h_u, h_step⟩ := Option.bind_eq_some_iff.mp h_step
    split_ifs at h_step with h_live
    obtain rfl := Option.some.inj h_step
    exact h.close h_u h_live (h_apart u h_u)

/-- What the program comes to then. -/
theorem isolated (h : pool.Inv s) : pool.Isolated s where
  unique _ _ _ _ h_u h_v h_live h_live' h_id := h.unique h_u h_v h_id (SetUp.phase_ne_ended h_live) h_live'
  calls call h_call := by
    have h_follows := h.calls call h_call
    unfold Follows at h_follows
    split at h_follows
    · next h_state =>
      unfold IsIsolated
      rw [h_state]
      trivial
    · exact h_follows

end Inv

/-- Before the first event. -/
theorem Inv.initial : pool.Inv ServerConnectionPool.initial where
  tables := Tables.Holds.empty
  setUps := nofun
  generated := nofun
  admits := nofun
  calls := nofun

/-- **In runs that keep calls apart no id has two live connections, and every call comes to what it may.** -/
theorem isolated_of_reach (h : pool.machine.Reach pool.KeepsApart s) : pool.Isolated s := by
  refine (h.invariant pool.Inv ?_ ?_).isolated
  · rintro s rfl
    exact Inv.initial
  · intro s e t _ h_inv h_apart h_step
    exact h_inv.step h_apart h_step

/-- A server. -/
def server : ServerConnectionPool := { crypto := default, serverSecret := [], optionsPass := true }

/-- The id that `generated` generates for it. -/
def generatedId : String := connectionId (List.replicate 49 0)

theorem length_iv : (List.replicate 12 (0 : UInt8)).length = Crypto.ivLength := rfl

/-- A generation without options. -/
def generated : Event := .generate {} ⟨List.replicate 18 0, rfl⟩ ⟨List.replicate 12 0, length_iv⟩

/-- Data that decrypts. -/
def goodData : Buffer := List.replicate 28 0

/-- Two calls share a promise, a third finds the connection, and one with another id is rejected. -/
theorem isolated_of_shared :
    ∃ s, server.machine.Reach server.KeepsApart s ∧ server.Isolated s ∧
      s.calls.map (fun call => (call.state, call.live)) =
        [(.resolved (.own 0), none), (.resolved (.own 0), none), (.resolved (.own 0), some 0),
          (.rejected, none)] := by
  have h_exec : (server.machine.exec server.KeepsApart initial
      ([generated, .getConnection generatedId goodData, .getConnection generatedId goodData] ++
        List.replicate 4 (.resume 0) ++ [.react 0, .settle 0, .getConnection generatedId [],
          .getConnection "x" goodData] ++ List.replicate 3 (.resume 1) ++
        [.react 1, .settle 1, .close 0, .settle 3])).map
      (fun s => s.calls.map fun call => (call.state, call.live)) =
        some [(.resolved (.own 0), none), (.resolved (.own 0), none), (.resolved (.own 0), some 0),
          (.rejected, none)] := by
    decide +kernel
  obtain ⟨s, h_exec, h_end⟩ := Option.map_eq_some_iff.mp h_exec
  have h : server.machine.Reach server.KeepsApart s := Machine.reach_of_exec _ rfl h_exec
  exact ⟨s, h, isolated_of_reach h, h_end⟩

/-- A call with the name of an inherited property is resolved with that property. A call whose id was
generated and whose data decrypts is rejected, as it shares the promise of a call whose data does not. -/
theorem not_isolated :
    (∃ s, server.machine.Reachable s ∧
      s.calls = [⟨"constructor", [], .resolved .inherited, none, false⟩] ∧ ¬server.Isolated s) ∧
    ∃ s, server.machine.Reachable s ∧ ∃ call ∈ s.calls,
      call.state = .rejected ∧ call.live = none ∧ server.Admits call ∧ ¬server.Isolated s := by
  constructor
  · have h_step : server.machine.step initial (.getConnection "constructor" []) =
        some (initial.getConnection "constructor" []) := rfl
    have h_calls : (initial.getConnection "constructor" []).calls =
        [⟨"constructor", [], .resolved .inherited, none, false⟩] := by decide +kernel
    refine ⟨_, Machine.Reachable.step (.init rfl) h_step, h_calls, fun h => ?_⟩
    obtain ⟨i, u, h_found, -⟩ := h.calls _ (h_calls ▸ List.mem_singleton_self _)
    cases h_found
  · have h_exec : (server.machine.exec (fun _ _ => True) initial
        ([generated, .getConnection generatedId [], .getConnection generatedId goodData] ++
          List.replicate 3 (.resume 0) ++ [.react 0, .settle 1])).map (fun s => s.calls[1]?) =
          some (some ⟨generatedId, goodData, .rejected, none, true⟩) := by
      decide +kernel
    obtain ⟨s, h_exec, h_call⟩ := Option.map_eq_some_iff.mp h_exec
    have h_mem := List.mem_of_getElem? h_call
    have h_opens : opens server.crypto server.serverSecret generatedId goodData = true := by decide +kernel
    refine ⟨s, Machine.reach_of_exec _ rfl h_exec, _, h_mem, rfl, rfl, ⟨rfl, h_opens, rfl⟩, fun h => ?_⟩
    exact (h.calls _ h_mem).2 ⟨rfl, h_opens, rfl⟩

end ServerConnectionPool

end Interledger.Stream
