import Interledger.Stream.Connection
import Interledger.Stream.OutgoingData
import Interledger.Stream.PacketCodec

/-!
# The send loop of a connection

`startSendLoop` of `ilp-protocol-stream/src/connection.ts` with what it awaits, and `loadAndSendPacket` as
far as it decides whether the loop goes on. A call starts a loop or, while one is running, tells it to go
round once more. The loop tells itself to stop when a packet has no money and no frame that would be sent
again if the packet were rejected.

Other code runs whenever the loop awaits something, and while a write callback runs in the middle of a
packet being loaded. Such a callback may call `startSendLoop` again, with something to send that the packet
has been past. The loop then stops all the same, if that packet has nothing else to keep it going: the
chunk whose callback it was must have been empty.

A packet is read as the types of its frames, and the money that a stream has for it as an amount.

## Main results

* `SendLoop.Sound.step` — a call is outstanding only while a loop is going to load a packet;
* `startSendLoop_loses_call` — a call from the callback of an empty chunk is lost;
* `startSendLoop_wakes` — in every run without such a packet, no call is; and never do two loops run.
-/

namespace Interledger.Stream

open Interledger.Ilp

/-- `FrameType`. -/
inductive FrameType
  | connectionClose
  | connectionNewAddress
  | connectionMaxData
  | connectionDataBlocked
  | connectionMaxStreamId
  | connectionStreamIdBlocked
  | connectionAssetDetails
  | streamClose
  | streamMoney
  | streamMaxMoney
  | streamMoneyBlocked
  | streamData
  | streamMaxData
  | streamDataBlocked
  | streamReceipt
  deriving DecidableEq

/-- The frames that keep the loop going, so that it may send them again if the packet is rejected. -/
def FrameType.isRetried : FrameType → Bool
  | .streamClose | .streamData | .streamMoney => true
  | _ => false

/-- A stream of the connection as a packet that is loaded finds it. `amountToSend` is the least of what it
has available and of what its receiver accepts, and `moneyBlocked` whether it has more than that. -/
structure LoopStream where
  id : Long := 1
  recorded : Bool := true
  isOpen : Bool := true
  sentEnd : Bool := false
  amountToSend : ℕ := 0
  moneyBlocked : Bool := false
  data : OutgoingStream := {}
  deriving DecidableEq

/-- A packet while it is loaded. -/
structure PacketLoad where
  frames : List FrameType
  amountToSend : ℕ
  bytesLeftInPacket : ℤ
  deriving DecidableEq

/-- The packet has nothing that keeps the loop going. -/
def PacketLoad.stops (load : PacketLoad) : Bool :=
  load.amountToSend = 0 && !load.frames.any FrameType.isRetried

/-- Where a loop is: it awaits `setupExchangeRate`, `setImmediate` or what comes of a packet that is sent,
or it loads a packet. Of the streams it loads the data of one after the other; the callback of a write may
run meanwhile. -/
inductive LoopPoint
  | setup
  | immediate
  | data (load : PacketLoad) (next : ℕ)
  | callback (load : PacketLoad) (next : ℕ) (read : PendingRead)
  | decision (load : PacketLoad)
  | reply
  deriving DecidableEq

/-- A packet that is loaded stops the loop there. -/
def LoopPoint.stops : LoopPoint → Bool
  | .decision load => load.stops
  | _ => false

/-- Other code may run there. -/
def LoopPoint.yields : LoopPoint → Bool
  | .setup | .immediate | .callback _ _ _ | .reply => true
  | .data _ _ | .decision _ => false

/-- What other code may change about a connection, besides its flags. `maxPacketAmount` is the most that a
packet may carry. -/
structure LoopContext where
  destinationAccount : Option String := none
  closed : Bool := true
  remoteKnowsOurAccount : Bool := false
  queuedFrames : List FrameType := []
  maxPacketAmount : ℕ := 0
  streams : List LoopStream := []
  deriving DecidableEq

/-- A connection with its send loops. `due` is kept beside: whether `startSendLoop` was called since a
packet was last begun, while the remote was not closed and the destination account known. -/
structure SendLoop extends LoopContext where
  looping : Bool := false
  sending : Bool := false
  connected : Bool := false
  remoteState : RemoteState := .init
  loops : List LoopPoint := []
  due : Bool := false
  deriving DecidableEq

/-- The room that the frames of a packet and the peer leave for data, and whether the peer leaves less. -/
structure Room where
  bytesLeftInPacket : ℤ
  blocked : Bool
  deriving DecidableEq

/-- What happens to a connection: a call, chunks written by the application, what else other code changes,
a packet from the remote that closes the connection or that answers one of ours, the connection telling
the remote that it is closed, a loop going on, or an error in it. -/
inductive LoopEvent
  | call
  | write (stream : ℕ) (chunks : List Buffer) (last : Buffer) (callback : ℕ)
  | change (context : LoopContext)
  | remoteClosed (errorCode : ErrorCode)
  | response
  | sentClose
  | goOn (i : ℕ) (room : Room)
  | failed (i : ℕ)
  deriving DecidableEq

namespace SendLoop

variable (s : SendLoop)

/-- The head of the loop, from which it is going to await `setupExchangeRate` or `loadAndSendPacket`. -/
def firstPoint : LoopPoint := if s.connected then .immediate else .setup

/-- A call is outstanding from now on, if it counts. -/
def noteCall : SendLoop :=
  { s with due := s.due || (s.remoteState ≠ .closed && s.destinationAccount.isSome) }

/-- `startSendLoop`, up to its first `await`. -/
def startSendLoop : SendLoop :=
  if s.looping then { s.noteCall with sending := true }
  else if s.remoteState = .closed then s.noteCall
  else if s.destinationAccount = none then s.noteCall
  else { s.noteCall with looping := true, sending := true, loops := s.loops ++ [s.firstPoint] }

/-- `while (this.sending)`, for the loop at a position. -/
def whileSending (i : ℕ) : SendLoop :=
  if s.sending then { s with loops := s.loops.set i s.firstPoint }
  else { s with looping := false, loops := s.loops.eraseIdx i }

/-- The frames that a packet begins with. -/
def controlFrames : List FrameType :=
  s.queuedFrames ++
    (if s.remoteKnowsOurAccount then [] else [.connectionNewAddress, .connectionAssetDetails]) ++
    (s.streams.flatMap fun stream =>
      if stream.recorded && stream.isOpen then [.streamMaxMoney, .streamMaxData] else []) ++
    if s.closed && s.remoteState = .connected then [.connectionClose] else []

/-- The money of the streams in turn, until the packet is full. -/
def takeMoney : ℕ → List LoopStream → List FrameType × ℕ
  | _, [] => ([], 0)
  | maxAmountFromNextStream, stream :: streams =>
    if !stream.recorded || stream.sentEnd then takeMoney maxAmountFromNextStream streams
    else
      let amount := min stream.amountToSend maxAmountFromNextStream
      let frames : List FrameType :=
        (if amount > 0 then [.streamMoney] else []) ++
          if stream.moneyBlocked then [.streamMoneyBlocked] else []
      if maxAmountFromNextStream - amount = 0 then (frames, amount)
      else
        let (rest, total) := takeMoney (maxAmountFromNextStream - amount) streams
        (frames ++ rest, amount + total)

/-- `loadAndSendPacket` up to the data, after `setImmediate`. -/
def loadPacket (i : ℕ) (room : Room) : SendLoop :=
  let (money, amountToSend) := takeMoney s.maxPacketAmount s.streams
  let load : PacketLoad :=
    { frames := s.controlFrames ++ money ++ if room.blocked then [.connectionDataBlocked] else []
      amountToSend := amountToSend
      bytesLeftInPacket := room.bytesLeftInPacket }
  { s with
    queuedFrames := []
    remoteState := if s.closed && s.remoteState = .connected then .closed else s.remoteState
    loops := s.loops.set i (.data load 0)
    due := false }

/-- The frames for the data that a stream has handed out. -/
def addData (load : PacketLoad) (entry : OffsetDataEntry) (stream : LoopStream) : PacketLoad :=
  let data := stream.data
  let isDataBlocked := data.remoteMaxOffset < data.outgoingOffset + (bytes data.outgoingData).length
  let streamDataFrame := Frame.streamData stream.id (BitVec.ofNat 64 entry.offset) entry.data
  { load with
    frames := load.frames ++ (if entry.data = [] then [] else [.streamData]) ++
      if isDataBlocked then [.streamDataBlocked] else []
    bytesLeftInPacket := load.bytesLeftInPacket -
      if entry.data = [] then 0 else (streamDataFrame.byteLength.toOption.getD 0 : ℕ) }

/-- What comes of asking a stream for data: its callback runs, or the next stream is asked. -/
def handleAvailable (i : ℕ) (load : PacketLoad) (next : ℕ) (stream : LoopStream) :
    OutgoingStream × Available → SendLoop
  | (data, .interrupted read) =>
    { s with
      streams := s.streams.set next { stream with data := data }
      loops := s.loops.set i (.callback load next read) }
  | (data, .segment entry) =>
    let stream := { stream with data := data }
    { s with
      streams := s.streams.set next stream
      loops := s.loops.set i (.data (addData load entry stream) (next + 1)) }

/-- The data of the next stream, if there is one and room for its data. -/
def loadData (i : ℕ) (load : PacketLoad) (next : ℕ) : SendLoop :=
  match s.streams[next]? with
  | none => { s with loops := s.loops.set i (.decision load) }
  | some stream =>
    if !stream.recorded then { s with loops := s.loops.set i (.data load (next + 1)) }
    else if load.bytesLeftInPacket - 20 ≤ 0 then { s with loops := s.loops.set i (.decision load) }
    else
      s.handleAvailable i load next stream
        (stream.data.getAvailableDataToSend (load.bytesLeftInPacket - 20).toNat)

/-- The callback that a loop has run returns. -/
def callbackReturned (i : ℕ) (load : PacketLoad) (next : ℕ) (read : PendingRead) : Option SendLoop :=
  s.streams[next]?.map fun stream =>
    s.handleAvailable i load next stream (stream.data.callbackReturned read)

/-- The end of loading a packet: the loop stops if it has nothing that keeps it going. A packet without
frames is not sent. -/
def checkStop (i : ℕ) (load : PacketLoad) : SendLoop :=
  { s with
    sending := s.sending && !load.stops
    loops := s.loops.set i .reply }

/-- A loop goes on from where it is. -/
def goOn (i : ℕ) (room : Room) : LoopPoint → Option SendLoop
  | .setup => some (whileSending { s with connected := true } i)
  | .immediate => some (s.loadPacket i room)
  | .data load next => some (s.loadData i load next)
  | .callback load next read => s.callbackReturned i load next read
  | .decision load => some (s.checkStop i load)
  | .reply => some (s.whileSending i)

/-- What the remote has closed. Without an error the connection is ended, and with one it is destroyed. -/
def handleConnectionClose (errorCode : ErrorCode) : SendLoop :=
  let closed := { s with sending := false, closed := true, remoteState := .closed }
  if errorCode = ErrorCode.noError then closed.startSendLoop else closed

/-- The application writes to a stream. -/
def write (stream : ℕ) (chunks : List Buffer) (last : Buffer) (callback : ℕ) : SendLoop :=
  startSendLoop
    { s with
      streams := s.streams.modify stream fun stream =>
        { stream with data := stream.data.write chunks last callback } }

/-- Other code runs now. -/
def yields : Bool := s.loops.all LoopPoint.yields

/-- One event. -/
def step : LoopEvent → Option SendLoop
  | .call => if s.yields then some s.startSendLoop else none
  | .write stream chunks last callback =>
    if s.yields then some (s.write stream chunks last callback) else none
  | .change context => if s.yields then some { s with toLoopContext := context } else none
  | .remoteClosed errorCode => if s.yields then some (s.handleConnectionClose errorCode) else none
  | .response =>
    if s.yields then
      some
        { s with
          remoteKnowsOurAccount := true
          remoteState := if s.remoteState = .init then .connected else s.remoteState }
    else none
  | .sentClose => if s.yields then some { s with remoteState := .closed } else none
  | .goOn i room => s.loops[i]?.bind (s.goOn i room)
  | .failed i =>
    if i < s.loops.length then
      some { s with looping := false, loops := s.loops.eraseIdx i, due := false }
    else none

/-- A connection with its send loops as an event machine. It may begin with any streams. -/
def machine : Machine SendLoop LoopEvent where
  init s := s.looping = false ∧ s.sending = false ∧ s.loops = [] ∧ s.due = false
  step := step

/-! ### Calls and loops -/

/-- There is a loop just while the flag says so, and never a second one. -/
def OneLoop : Prop := s.loops.length = if s.looping then 1 else 0

/-- A call that is outstanding will be heard: a loop is there, and goes round once more or has come to where
it loads a packet. -/
def Awake : Prop := s.due = true → s.looping = true ∧ (s.sending = true ∨ .immediate ∈ s.loops)

/-- No call is outstanding where a packet stops the loop, nor when the remote closes the connection with an
error. -/
def KeepsCalls : LoopEvent → Prop
  | .goOn i _ => ∀ point ∈ s.loops[i]?, s.due = true → point.stops = false
  | .remoteClosed errorCode => s.due = true → errorCode = ErrorCode.noError
  | _ => True

instance : DecidablePred s.KeepsCalls
  | .goOn i _ => inferInstanceAs (Decidable (∀ point ∈ s.loops[i]?, s.due = true → point.stops = false))
  | .remoteClosed errorCode => inferInstanceAs (Decidable (s.due = true → errorCode = ErrorCode.noError))
  | .call | .write .. | .change _ | .response | .sentClose | .failed _ => inferInstanceAs (Decidable True)

variable {s}

theorem OneLoop.startSendLoop (h : s.OneLoop) : s.startSendLoop.OneLoop := by
  unfold SendLoop.startSendLoop
  split
  · exact h
  · next h_idle =>
    split
    · exact h
    · split
      · exact h
      · -- the loop is the first one
        change (s.loops ++ [_]).length = 1
        have h_none : s.loops.length = 0 := by
          unfold OneLoop at h
          rwa [if_neg h_idle] at h
        rw [List.length_append, h_none]
        rfl

/-- A call is heard, as are those before it if a loop is there. -/
theorem awake_startSendLoop (h : s.due = true → s.looping = true) : s.startSendLoop.Awake := by
  unfold SendLoop.startSendLoop
  split
  · next h_looping => exact fun _ => ⟨h_looping, .inl rfl⟩
  · next h_idle =>
    split
    · -- the call does not count, and none was outstanding
      next h_closed =>
      intro h_due
      have h_before : s.due = true := by
        simpa [noteCall, h_closed] using h_due
      exact absurd (h h_before) h_idle
    · split
      · next h_none =>
        intro h_due
        have h_before : s.due = true := by
          simpa [noteCall, h_none] using h_due
        exact absurd (h h_before) h_idle
      · exact fun _ => ⟨rfl, .inl rfl⟩

/-- Where a loop is found, it is the only one. -/
theorem OneLoop.at (h : s.OneLoop) {i : ℕ} {point : LoopPoint} (h_point : s.loops[i]? = some point) :
    s.looping = true ∧ i = 0 ∧ s.loops = [point] := by
  obtain ⟨h_lt, h_get⟩ := List.getElem?_eq_some_iff.mp h_point
  unfold OneLoop at h
  cases h_looping : s.looping with
  | false =>
    rw [h_looping] at h
    exact absurd h_lt (by rw [h]; exact Nat.not_lt_zero i)
  | true =>
    rw [h_looping, if_pos rfl] at h
    obtain ⟨only, h_only⟩ := List.length_eq_one_iff.mp h
    have h_i : i = 0 := by
      rw [h] at h_lt
      exact Nat.lt_one_iff.mp h_lt
    subst h_i
    simp only [h_only, List.getElem_cons_zero] at h_get
    exact ⟨rfl, rfl, by rw [h_only, h_get]⟩

/-- The head of the loop: it ends, or goes round once more. -/
theorem OneLoop.whileSending (h : s.OneLoop) {i : ℕ} {point : LoopPoint}
    (h_point : s.loops[i]? = some point) : (s.whileSending i).OneLoop := by
  obtain ⟨h_looping, h_i, h_loops⟩ := h.at h_point
  subst h_i
  unfold SendLoop.whileSending
  split
  · change (s.loops.set 0 _).length = if s.looping then 1 else 0
    rw [List.length_set]
    exact h
  · change (s.loops.eraseIdx 0).length = 0
    rw [h_loops]
    rfl

theorem Awake.whileSending (h : s.due = true → s.looping = true ∧ s.sending = true) (i : ℕ) :
    (s.whileSending i).Awake := by
  unfold SendLoop.whileSending
  split
  · next h_sending => exact fun h_due => ⟨(h h_due).1, .inl h_sending⟩
  · next h_stopped => exact fun h_due => absurd (h h_due).2 h_stopped

/-- What a step of loading a packet leaves as it is. -/
structure KeepsFlags (s t : SendLoop) : Prop where
  looping : t.looping = s.looping
  sending : t.sending = s.sending
  due : t.due = s.due
  length : t.loops.length = s.loops.length

theorem KeepsFlags.oneLoop {t : SendLoop} (h : KeepsFlags s t) (h_one : s.OneLoop) : t.OneLoop := by
  unfold OneLoop
  rw [h.length, h.looping]
  exact h_one

theorem keepsFlags_handleAvailable (i : ℕ) (load : PacketLoad) (next : ℕ) (stream : LoopStream)
    (x : OutgoingStream × Available) : KeepsFlags s (s.handleAvailable i load next stream x) := by
  rcases x with ⟨data, available⟩
  cases available with
  | interrupted read => exact ⟨rfl, rfl, rfl, List.length_set⟩
  | segment entry => exact ⟨rfl, rfl, rfl, List.length_set⟩

theorem keepsFlags_loadData (i : ℕ) (load : PacketLoad) (next : ℕ) :
    KeepsFlags s (s.loadData i load next) := by
  unfold loadData
  split
  · exact ⟨rfl, rfl, rfl, List.length_set⟩
  · split
    · exact ⟨rfl, rfl, rfl, List.length_set⟩
    · split
      · exact ⟨rfl, rfl, rfl, List.length_set⟩
      · exact keepsFlags_handleAvailable i load next _ _

theorem keepsFlags_callbackReturned {t : SendLoop} {i : ℕ} {load : PacketLoad} {next : ℕ} {read : PendingRead}
    (h_t : s.callbackReturned i load next read = some t) : KeepsFlags s t := by
  obtain ⟨stream, -, rfl⟩ := Option.map_eq_some_iff.mp h_t
  exact keepsFlags_handleAvailable i load next _ _

/-! ### One step -/

theorem OneLoop.goOn (h : s.OneLoop) {i : ℕ} {point : LoopPoint} {room : Room} {t : SendLoop}
    (h_point : s.loops[i]? = some point) (h_t : s.goOn i room point = some t) : t.OneLoop := by
  have h_set (loop : LoopPoint) : (s.loops.set i loop).length = if s.looping then 1 else 0 :=
    List.length_set.trans h
  cases point with
  | setup =>
    obtain rfl : _ = t := Option.some.inj h_t
    exact OneLoop.whileSending (s := { s with connected := true }) h h_point
  | immediate =>
    obtain rfl : _ = t := Option.some.inj h_t
    exact h_set _
  | data load next =>
    obtain rfl : _ = t := Option.some.inj h_t
    exact (keepsFlags_loadData i load next).oneLoop h
  | callback load next read => exact (keepsFlags_callbackReturned h_t).oneLoop h
  | decision load =>
    obtain rfl : _ = t := Option.some.inj h_t
    exact h_set _
  | reply =>
    obtain rfl : _ = t := Option.some.inj h_t
    exact h.whileSending h_point

/-- **There is never a second loop**, whatever happens. -/
theorem OneLoop.step (h : s.OneLoop) {e : LoopEvent} {t : SendLoop} (h_t : s.step e = some t) : t.OneLoop := by
  cases e with
  | goOn i room =>
    obtain ⟨point, h_point, h_t⟩ := Option.bind_eq_some_iff.mp h_t
    -- a loop goes on, or ends
    exact h.goOn h_point h_t
  | failed i =>
    obtain ⟨h_lt, h_t⟩ := Option.ite_none_right_eq_some.mp h_t
    obtain rfl : _ = t := Option.some.inj h_t
    -- the loop that failed was the only one
    obtain ⟨-, rfl, h_loops⟩ := h.at (List.getElem?_eq_getElem h_lt)
    change (s.loops.eraseIdx 0).length = 0
    rw [h_loops]
    rfl
  | call =>
    obtain ⟨-, h_t⟩ := Option.ite_none_right_eq_some.mp h_t
    obtain rfl : _ = t := Option.some.inj h_t
    -- a call starts a loop only when there is none
    exact h.startSendLoop
  | write stream chunks last callback =>
    obtain ⟨-, h_t⟩ := Option.ite_none_right_eq_some.mp h_t
    obtain rfl : _ = t := Option.some.inj h_t
    exact OneLoop.startSendLoop (s := { s with streams := _ }) h
  | remoteClosed errorCode =>
    obtain ⟨-, h_t⟩ := Option.ite_none_right_eq_some.mp h_t
    obtain rfl : _ = t := Option.some.inj h_t
    unfold handleConnectionClose
    split
    · exact OneLoop.startSendLoop h
    · exact h
  | change _ | response | sentClose =>
    obtain ⟨-, h_t⟩ := Option.ite_none_right_eq_some.mp h_t
    obtain rfl : _ = t := Option.some.inj h_t
    exact h

/-- While a loop is anywhere but where it begins to load a packet, a call that is outstanding has told it
to go round once more. -/
theorem Awake.sending (h : s.Awake) (h_one : s.OneLoop) {i : ℕ} {point : LoopPoint}
    (h_point : s.loops[i]? = some point) (h_ne : point ≠ .immediate) :
    s.due = true → s.looping = true ∧ s.sending = true := by
  intro h_due
  obtain ⟨h_looping, h_heard⟩ := h h_due
  refine ⟨h_looping, h_heard.resolve_right ?_⟩
  intro h_mem
  rw [(h_one.at h_point).2.2] at h_mem
  exact h_ne (List.mem_singleton.mp h_mem).symm

theorem KeepsFlags.awake {t : SendLoop} (h : KeepsFlags s t)
    (h_sending : s.due = true → s.looping = true ∧ s.sending = true) : t.Awake := by
  intro h_due
  rw [h.due] at h_due
  rw [h.looping, h.sending]
  exact ⟨(h_sending h_due).1, .inl (h_sending h_due).2⟩

theorem Awake.goOn (h : s.Awake) (h_one : s.OneLoop) {i : ℕ} {point : LoopPoint} {room : Room} {t : SendLoop}
    (h_point : s.loops[i]? = some point) (h_keeps : s.due = true → point.stops = false)
    (h_t : s.goOn i room point = some t) : t.Awake := by
  cases point with
  | setup =>
    obtain rfl : _ = t := Option.some.inj h_t
    have h_sending := h.sending h_one h_point nofun
    exact Awake.whileSending (s := { s with connected := true }) h_sending i
  | immediate =>
    -- here the calls are heard
    obtain rfl : _ = t := Option.some.inj h_t
    exact fun h_due => absurd h_due Bool.false_ne_true
  | data load next =>
    obtain rfl : _ = t := Option.some.inj h_t
    exact (keepsFlags_loadData i load next).awake (h.sending h_one h_point nofun)
  | callback load next read =>
    exact (keepsFlags_callbackReturned h_t).awake (h.sending h_one h_point nofun)
  | decision load =>
    obtain rfl : _ = t := Option.some.inj h_t
    intro h_due
    obtain ⟨h_looping, h_sending⟩ := h.sending h_one h_point nofun h_due
    have h_goes : load.stops = false := h_keeps h_due
    refine ⟨h_looping, .inl ?_⟩
    change (s.sending && !load.stops) = true
    rw [h_sending, h_goes]
    rfl
  | reply =>
    obtain rfl : _ = t := Option.some.inj h_t
    exact Awake.whileSending (h.sending h_one h_point nofun) i

/-- **A call stays heard** until a packet is begun. -/
theorem Awake.step (h : s.Awake) (h_one : s.OneLoop) {e : LoopEvent} {t : SendLoop} (h_keeps : s.KeepsCalls e)
    (h_t : s.step e = some t) : t.Awake := by
  -- a call that is due has a loop that will see it
  have h_looping : s.due = true → s.looping = true := fun h_due => (h h_due).1
  cases e with
  | goOn i room =>
    obtain ⟨point, h_point, h_t⟩ := Option.bind_eq_some_iff.mp h_t
    exact h.goOn h_one h_point (h_keeps point h_point) h_t
  | failed i =>
    obtain ⟨-, h_t⟩ := Option.ite_none_right_eq_some.mp h_t
    obtain rfl : _ = t := Option.some.inj h_t
    exact fun h_due => absurd h_due Bool.false_ne_true
  | call =>
    obtain ⟨-, h_t⟩ := Option.ite_none_right_eq_some.mp h_t
    obtain rfl : _ = t := Option.some.inj h_t
    exact awake_startSendLoop h_looping
  | write stream chunks last callback =>
    obtain ⟨-, h_t⟩ := Option.ite_none_right_eq_some.mp h_t
    obtain rfl : _ = t := Option.some.inj h_t
    exact awake_startSendLoop (s := { s with streams := _ }) h_looping
  | remoteClosed errorCode =>
    obtain ⟨-, h_t⟩ := Option.ite_none_right_eq_some.mp h_t
    obtain rfl : _ = t := Option.some.inj h_t
    unfold handleConnectionClose
    split
    · -- ending the connection tells the loop to go round once more
      exact awake_startSendLoop h_looping
    · next h_error => exact fun h_due => absurd (h_keeps h_due) h_error
  | change _ | response | sentClose =>
    obtain ⟨-, h_t⟩ := Option.ite_none_right_eq_some.mp h_t
    obtain rfl : _ = t := Option.some.inj h_t
    exact h

/-! ### Runs -/

theorem oneLoop_of_init (h : machine.init s) : s.OneLoop := by
  obtain ⟨h_idle, -, h_loops, -⟩ := h
  unfold OneLoop
  rw [h_idle, h_loops]
  rfl

theorem OneLoop.of_reachable (h : machine.Reachable s) : s.OneLoop :=
  h.invariant OneLoop (fun _ => oneLoop_of_init) fun _ _ _ _ h_one h_t => h_one.step h_t

theorem Awake.of_reach (h : machine.Reach KeepsCalls s) : s.Awake := by
  refine h.invariant Awake ?_ ?_
  · intro s h_s h_due
    exact absurd (h_s.2.2.2.symm.trans h_due) Bool.false_ne_true
  · intro s e t h_reach h_awake h_keeps h_t
    exact h_awake.step (OneLoop.of_reachable h_reach.reachable) h_keeps h_t

theorem due_startSendLoop : s.startSendLoop.due = s.noteCall.due := by
  unfold startSendLoop
  split
  · rfl
  · split
    · rfl
    · split
      · rfl
      · rfl

/-- A call that counts is outstanding. -/
theorem due_of_call (h_remote : s.remoteState ≠ .closed) (h_account : s.destinationAccount.isSome) :
    s.startSendLoop.due = true := by
  rw [due_startSendLoop]
  simp [noteCall, h_remote, h_account]

/-- A call does not end the wait of one before it. -/
theorem due_of_due (h : s.due = true) : s.startSendLoop.due = true := by
  rw [due_startSendLoop]
  simp [noteCall, h]

theorem due_whileSending (i : ℕ) : (s.whileSending i).due = s.due := by
  unfold whileSending
  split
  · rfl
  · rfl

/-- Only a packet that is begun, or an error, ends the wait of a call. -/
theorem begins_of_due (h_due : s.due = true) {e : LoopEvent} {t : SendLoop} (h_t : s.step e = some t)
    (h_heard : t.due = false) :
    (∃ i room, e = .goOn i room ∧ s.loops[i]? = some .immediate) ∨ ∃ i, e = .failed i := by
  cases e with
  | failed i => exact .inr ⟨i, rfl⟩
  | goOn i room =>
    obtain ⟨point, h_point, h_t⟩ := Option.bind_eq_some_iff.mp h_t
    -- but at the head of a packet, the loop leaves the call as it is
    have h_same (h : t.due = s.due) : False := by
      rw [h, h_due] at h_heard
      exact Bool.false_ne_true h_heard.symm
    cases point with
    | immediate => exact .inl ⟨i, room, rfl, h_point⟩
    | setup =>
      obtain rfl : _ = t := Option.some.inj h_t
      exact (h_same (due_whileSending (s := { s with connected := true }) i)).elim
    | data load next =>
      obtain rfl : _ = t := Option.some.inj h_t
      exact (h_same (keepsFlags_loadData i load next).due).elim
    | callback load next read => exact (h_same (keepsFlags_callbackReturned h_t).due).elim
    | decision load =>
      obtain rfl : _ = t := Option.some.inj h_t
      exact (h_same rfl).elim
    | reply =>
      obtain rfl : _ = t := Option.some.inj h_t
      exact (h_same (due_whileSending i)).elim
  | call =>
    obtain ⟨-, h_t⟩ := Option.ite_none_right_eq_some.mp h_t
    obtain rfl : _ = t := Option.some.inj h_t
    exact absurd ((due_of_due h_due).symm.trans h_heard) (Ne.symm Bool.false_ne_true)
  | write stream chunks last callback =>
    obtain ⟨-, h_t⟩ := Option.ite_none_right_eq_some.mp h_t
    obtain rfl : _ = t := Option.some.inj h_t
    -- and so do all calls
    have h_kept : (s.write stream chunks last callback).due = true := by
      unfold write
      exact due_of_due h_due
    exact absurd (h_kept.symm.trans h_heard) (Ne.symm Bool.false_ne_true)
  | remoteClosed errorCode =>
    obtain ⟨-, h_t⟩ := Option.ite_none_right_eq_some.mp h_t
    obtain rfl : _ = t := Option.some.inj h_t
    unfold handleConnectionClose at h_heard
    split at h_heard
    · have h_kept := due_of_due (s := { s with sending := false, closed := true, remoteState := .closed }) h_due
      exact absurd (h_kept.symm.trans h_heard) (Ne.symm Bool.false_ne_true)
    · exact absurd (h_due.symm.trans h_heard) (Ne.symm Bool.false_ne_true)
  | change _ | response | sentClose =>
    obtain ⟨-, h_t⟩ := Option.ite_none_right_eq_some.mp h_t
    obtain rfl : _ = t := Option.some.inj h_t
    exact absurd (h_due.symm.trans h_heard) (Ne.symm Bool.false_ne_true)

end SendLoop

/-- **The loop is woken by each call**, in every run in which no packet stops it while a call that was made
since the packet was begun is outstanding, and in which the remote does not then close the connection with
an error: when there is no loop, no call waits for one to load a packet. A call that counts waits until a
packet is begun or there is an error. Two loops never run, in any run. -/
theorem startSendLoop_wakes (s : SendLoop) :
    (SendLoop.machine.Reachable s → s.loops.length = if s.looping then 1 else 0) ∧
    (s.remoteState ≠ .closed → s.destinationAccount.isSome → s.startSendLoop.due = true) ∧
    (∀ e t, s.due = true → s.step e = some t → t.due = false →
      (∃ i room, e = .goOn i room ∧ s.loops[i]? = some .immediate) ∨ ∃ i, e = .failed i) ∧
    (SendLoop.machine.Reach SendLoop.KeepsCalls s → s.looping = false → s.due = false) := by
  refine ⟨fun h => SendLoop.OneLoop.of_reachable h, SendLoop.due_of_call,
    fun e t h_due => SendLoop.begins_of_due h_due, ?_⟩
  intro h h_idle
  rw [← Bool.not_eq_true]
  intro h_due
  have h_looping := (SendLoop.Awake.of_reach h h_due).1
  exact absurd (h_idle.symm.trans h_looping) Bool.false_ne_true

/-- A connection with two streams, of which nothing has been written to yet. -/
def SendLoop.fresh : SendLoop where
  destinationAccount := some "test.peer"
  closed := false
  remoteKnowsOurAccount := true
  connected := true
  remoteState := .connected
  streams := [{ id := 1 }, { id := 3 }]

/-- The callback of a chunk with a byte writes to the other stream. -/
theorem startSendLoop_wakes_callback :
    ∃ s, SendLoop.machine.Reach SendLoop.KeepsCalls s ∧ s.looping = false ∧ s.due = false ∧
      s.loops.length = 0 ∧ s.streams.map (fun stream => stream.data.outgoingOffset) = [3, 1] := by
  have h_exec : (SendLoop.machine.exec SendLoop.KeepsCalls SendLoop.fresh
      (.write 1 [] [7] 0 :: List.replicate 3 (.goOn 0 ⟨100, false⟩) ++
        .write 0 [] [1, 2, 3] 1 :: List.replicate 17 (.goOn 0 ⟨100, false⟩))).map
      (fun s => (s.looping, s.streams.map fun stream => stream.data.outgoingOffset)) =
        some (false, [3, 1]) := by
    decide +kernel
  obtain ⟨s, h_exec, h_end⟩ := Option.map_eq_some_iff.mp h_exec
  obtain ⟨h_idle, h_offsets⟩ := Prod.mk.inj h_end
  have h : SendLoop.machine.Reach SendLoop.KeepsCalls s :=
    Machine.reach_of_exec _ ⟨rfl, rfl, rfl, rfl⟩ h_exec
  refine ⟨s, h, h_idle, (startSendLoop_wakes s).2.2.2 h h_idle, ?_, h_offsets⟩
  rw [(startSendLoop_wakes s).1 h.reachable, h_idle]
  rfl

/-- The callback of an empty chunk writes to the other stream, which the packet has been past. The packet
has nothing to send, and the loop stops with three bytes to be sent. -/
theorem startSendLoop_loses_call :
    ∃ s, SendLoop.machine.Reachable s ∧ s.looping = false ∧ s.remoteState = .connected ∧ s.due = true ∧
      s.streams.map (fun stream => bytes stream.data.outgoingData) = [[1, 2, 3], []] := by
  have h_exec : (SendLoop.machine.exec (fun _ _ => True) SendLoop.fresh
      (.write 1 [] [] 0 :: List.replicate 3 (.goOn 0 ⟨100, false⟩) ++
        .write 0 [] [1, 2, 3] 1 :: List.replicate 4 (.goOn 0 ⟨100, false⟩))).map
      (fun s => (s.looping, s.remoteState, s.due, s.streams.map fun stream => bytes stream.data.outgoingData)) =
        some (false, .connected, true, [[1, 2, 3], []]) := by
    decide +kernel
  obtain ⟨s, h_exec, h_end⟩ := Option.map_eq_some_iff.mp h_exec
  simp only [Prod.mk.injEq] at h_end
  obtain ⟨h_idle, h_remote, h_due, h_left⟩ := h_end
  exact ⟨s, Machine.reach_of_exec _ ⟨rfl, rfl, rfl, rfl⟩ h_exec, h_idle, h_remote, h_due, h_left⟩

end Interledger.Stream
