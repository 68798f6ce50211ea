import Interledger.Pay.StreamSender

/-!
# A STREAM sender and its controllers

`StreamSender` of `pay/src/senders/index.ts` with any list of controllers, of which it takes no more than
`StreamController` of `pay/src/controllers/index.ts` says: a controller may answer to a request that is
built, and may take note of one that is sent and leave a handler of its reply. `σ` is all the state that
the sender and its controllers read and write, `β` is the request builder and `ρ` the finished request.

What the send loop executes are two kinds of functions, attempts and the effects of replies, and that is
all it knows of a sender.
-/

namespace Interledger.Pay

/-- The functions that a send loop executes: an attempt, which sends a request or does not, and the
effects of a reply. `κ` is what the latter closes over. -/
structure SendFunctions (σ κ τ : Type) where
  trySending : Env → σ → σ × NextState κ τ
  applyEffects : Env → κ → StreamReply → σ → σ × SendState τ

/-- A reply handler, which closes over what it needs of its request. -/
abbrev ReplyHandler (σ α : Type) := Env → StreamReply → σ → σ × α

/-- `StreamController`, both of whose methods are optional. -/
structure StreamController (σ β ρ : Type) where
  buildRequest : Option (Env → σ → β → β × RequestState) := none
  applyRequest : Option (Env → ρ → σ → σ × Option (ReplyHandler σ (Option PaymentError))) := none

/-- A concrete `StreamSender`: its controllers in their order, the builder of a new request, and
`nextState`, which finishes the request and supplies the sender's own handler of its reply. -/
structure Sender (σ β ρ τ : Type) where
  controllers : List (StreamController σ β ρ)
  requestBuilder : β
  nextState : Env → β → σ → σ × NextState (ρ × ReplyHandler σ (SendState τ)) τ

/-- What the effects of a reply close over: the handlers that the request was sent with. -/
structure Sent (σ ρ τ : Type) where
  request : ρ
  replyHandlers : List (ReplyHandler σ (Option PaymentError))
  applyReply : ReplyHandler σ (SendState τ)

namespace Sender

variable {σ β ρ τ : Type} (S : Sender σ β ρ τ)

/-- The controllers build the request, until one of them does not answer `Ready`. -/
def buildRequest (env : Env) (s : σ) : β × RequestState :=
  S.controllers.foldl
    (fun (request, state) controller =>
      match state, controller.buildRequest with
      | .ready, some buildRequest => buildRequest env s request
      | state, _ => (request, state))
    (S.requestBuilder, .ready)

/-- Every controller takes note of the request. -/
def applyRequest (env : Env) (request : ρ) (s : σ) :
    σ × List (ReplyHandler σ (Option PaymentError)) :=
  S.controllers.foldl
    (fun (s, replyHandlers) controller =>
      match controller.applyRequest with
      | none => (s, replyHandlers)
      | some applyRequest =>
        let (s, apply) := applyRequest env request s
        (s, replyHandlers ++ apply.toList))
    (s, [])

/-- `trySending`. -/
def trySending (env : Env) (s : σ) : σ × NextState (Sent σ ρ τ) τ :=
  match S.buildRequest env s with
  | (_, .error value) => (s, .cancel (.error value))
  | (_, .schedule) => (s, .cancel .schedule)
  | (_, .yield) => (s, .cancel .yield)
  | (builder, .ready) =>
    match S.nextState env builder s with
    | (s, .cancel state) => (s, .cancel state)
    | (s, .send (request, applyReply)) =>
      let (s, replyHandlers) := S.applyRequest env request s
      (s, .send { request, replyHandlers, applyReply })

end Sender

/-- The effects of a reply: those of every controller, then the sender's. The first error of a controller
overrides what the sender returns. -/
def Sent.applyEffects {σ ρ τ : Type} (sent : Sent σ ρ τ) (env : Env) (reply : StreamReply) (s : σ) :
    σ × SendState τ :=
  let (s, error) := sent.replyHandlers.foldl
    (fun (s, error) apply =>
      let (s, error') := apply env reply s
      (s, error <|> error'))
    (s, none)
  let (s, newState) := sent.applyReply env reply s
  (s, match error with
    | some value => .error value
    | none => newState)

/-- What the send loop executes for a sender. -/
def Sender.functions {σ β ρ τ : Type} (S : Sender σ β ρ τ) : SendFunctions σ (Sent σ ρ τ) τ where
  trySending := S.trySending
  applyEffects env sent := sent.applyEffects env

namespace StreamSender

variable {σ ρ τ : Type} (S : StreamSender σ ρ τ)

/-- The handlers of all controllers as one. -/
def controllersApplyReply (request : ρ) : ReplyHandler (Controllers × σ) (Option PaymentError) :=
  fun env reply s =>
    let (controllers, error) := s.1.applyReply env (S.sourceAmount request) reply
    ((controllers, s.2), error)

/-- The handler of the sender. -/
def senderApplyReply (request : ρ) : ReplyHandler (Controllers × σ) (SendState τ) :=
  fun env reply s =>
    let (sender, newState) := S.applyReply env s.1 request reply s.2
    ((s.1, sender), newState)

/-- A sender with these controllers, which are read as one. -/
def toSender : Sender (Controllers × σ) Unit ρ τ where
  controllers :=
    [{ buildRequest := some fun env s request => (request, s.1.buildRequest env)
       applyRequest := some fun env request s =>
         ((s.1.applyRequest env, s.2), some (S.controllersApplyReply request)) }]
  requestBuilder := ()
  nextState env _ s :=
    match S.nextState env s.1 s.2 with
    | (sender, .cancel state) => ((s.1, sender), .cancel state)
    | (sender, .send request) => ((s.1, sender), .send (request, S.senderApplyReply request))

/-- What the reply to a request closes over. -/
def sent (request : ρ) : Sent (Controllers × σ) ρ τ where
  request := request
  replyHandlers := [S.controllersApplyReply request]
  applyReply := S.senderApplyReply request

variable (env : Env) (controllers : Controllers) (sender : σ)

/-- An attempt: the controllers may veto it, then the sender commits to a request or cancels. -/
theorem toSender_trySending :
    S.toSender.trySending env (controllers, sender) =
      match controllers.buildRequest env with
      | .error value => ((controllers, sender), .cancel (.error value))
      | .schedule => ((controllers, sender), .cancel .schedule)
      | .yield => ((controllers, sender), .cancel .yield)
      | .ready =>
        match S.nextState env controllers sender with
        | (sender, .cancel state) => ((controllers, sender), .cancel state)
        | (sender, .send request) => ((controllers.applyRequest env, sender), .send (S.sent request)) := by
  have h_build : S.toSender.buildRequest env (controllers, sender) = ((), controllers.buildRequest env) :=
    rfl
  unfold Sender.trySending
  rw [h_build]
  -- the sender is asked only once every controller is ready
  cases controllers.buildRequest env with
  | error value | schedule | yield => rfl
  | ready =>
    rcases h_next : S.nextState env controllers sender with ⟨sender', request | state⟩
    · have h_send : S.toSender.nextState env () (controllers, sender) =
          ((controllers, sender'), .send (request, S.senderApplyReply request)) := by
        unfold toSender
        simp only [h_next]
      simp only [h_send]
      rfl
    · have h_cancel : S.toSender.nextState env () (controllers, sender) =
          ((controllers, sender'), .cancel state) := by
        unfold toSender
        simp only [h_next]
      simp only [h_cancel]

/-- The effects of a reply: those of the controllers, then the sender's. -/
theorem sent_applyEffects (request : ρ) (reply : StreamReply) :
    (S.sent request).applyEffects env reply (controllers, sender) =
      let (controllers, error) := controllers.applyReply env (S.sourceAmount request) reply
      let (sender, newState) := S.applyReply env controllers request reply sender
      ((controllers, sender),
       match error with
       | some value => .error value
       | none => newState) := by
  rfl

end StreamSender

end Interledger.Pay
